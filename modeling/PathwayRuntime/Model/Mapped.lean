import PathwayRuntime.Model.Payload
import PathwayRuntime.Python.Canonical

/-!
# What `dict(value)` holds

* `asItems_uniqueKeys`: its values are values of the argument, or texts.
* `nodup_textKeys_setItem`: setting an item repeats no text among the keys.
* **`uniqueKeys_of_asItems`**: when its keys are texts, it is an object without repeated keys.
* `writtenItems`: the JSON that is written for a dict; **`reads_dumpsItems`**: its text is read as that.
-/

set_option autoImplicit false

namespace Rpr

namespace Json

/-! ## The values -/

theorem uniqueKeys_chars {s : PyText} : ∀ j ∈ chars s, j.UniqueKeys := by
  intro j hj
  cases s with
  | utf8 s =>
    obtain ⟨c, -, rfl⟩ := List.mem_map.mp hj
    trivial
  | lone codes h =>
    obtain ⟨c, -, rfl⟩ := List.mem_map.mp hj
    trivial

theorem pair_uniqueKeys {i : ℕ} {j : Json} {item : Json × Json} (h : j.pair i = .ok item) (hu : j.UniqueKeys) :
    item.2.UniqueKeys := by
  obtain ⟨key, value⟩ := item
  cases j with
  | null | bool _ | int _ | float _ => cases h
  | str s =>
    rw [pair] at h
    split at h
    · rename_i hitems
      cases h
      exact uniqueKeys_chars (s := s) _ (by rw [Option.some.inj hitems]; simp)
    · cases h
    · cases h
  | arr items =>
    rw [pair] at h
    split at h
    · rename_i hitems
      cases h
      obtain rfl := Option.some.inj hitems
      exact hu.2.1
    · cases h
    · cases h
  | obj fields =>
    rw [pair] at h
    split at h
    · rename_i hitems
      cases h
      have hmem : value ∈ fields.map fun f => Json.str f.1 := by
        rw [Option.some.inj hitems]
        simp
      obtain ⟨f, -, rfl⟩ := List.mem_map.mp hmem
      trivial
    · cases h
    · cases h

theorem setItem_uniqueKeys {key value : Json} {items : List (Json × Json)} (hv : value.UniqueKeys)
    (hu : ∀ item ∈ items, item.2.UniqueKeys) : ∀ item ∈ setItem key value items, item.2.UniqueKeys := by
  induction items with
  | nil => exact List.forall_mem_singleton.mpr hv
  | cons item items ih =>
    obtain ⟨hitem, hitems⟩ := List.forall_mem_cons.mp hu
    rw [setItem]
    split_ifs
    · exact List.forall_mem_cons.mpr ⟨hv, hitems⟩
    · exact List.forall_mem_cons.mpr ⟨hitem, ih hitems⟩

theorem update_uniqueKeys {i : ℕ} {values : List Json} {items out : List (Json × Json)}
    (h : update i values items = .ok out) (hv : ∀ v ∈ values, v.UniqueKeys)
    (hu : ∀ item ∈ items, item.2.UniqueKeys) : ∀ item ∈ out, item.2.UniqueKeys := by
  induction values generalizing i items with
  | nil =>
    cases h
    exact hu
  | cons value values ih =>
    obtain ⟨hvalue, hvalues⟩ := List.forall_mem_cons.mp hv
    rw [update] at h
    cases hpair : value.pair i with
    | error e =>
      rw [hpair] at h
      cases h
    | ok item =>
      simp only [hpair, bind, Except.bind] at h
      split_ifs at h
      exact ih h hvalues (setItem_uniqueKeys (pair_uniqueKeys hpair hvalue) hu)

theorem asItems_uniqueKeys {j : Json} {items : List (Json × Json)} (h : j.asItems = .ok items)
    (hu : j.UniqueKeys) : ∀ item ∈ items, item.2.UniqueKeys := by
  cases j with
  | null | bool _ | int _ | float _ => cases h
  | str s => exact update_uniqueKeys h uniqueKeys_chars fun _ hi => (List.not_mem_nil hi).elim
  | arr values => exact update_uniqueKeys h (uniqueItems_iff.mp hu) fun _ hi => (List.not_mem_nil hi).elim
  | obj fields =>
    cases h
    intro item hitem
    obtain ⟨f, hf, rfl⟩ := List.mem_map.mp hitem
    exact uniqueFields_iff.mp hu.2 f hf

theorem uniqueKeys_of_textFields {items : List (Json × Json)} {fields : List (PyText × Json)}
    (h : textFields items = some fields) (hu : ∀ item ∈ items, item.2.UniqueKeys) : UniqueFields fields := by
  induction items generalizing fields with
  | nil =>
    obtain rfl := Option.some.inj h
    trivial
  | cons item items ih =>
    obtain ⟨key, value⟩ := item
    obtain ⟨hvalue, hvalues⟩ := List.forall_mem_cons.mp hu
    cases key with
    | str key =>
      rw [textFields] at h
      obtain ⟨rest, hrest, rfl⟩ := Option.map_eq_some_iff.mp h
      exact ⟨hvalue, ih hrest hvalues⟩
    | null | bool _ | int _ | float _ | arr _ | obj _ => cases h

/-! ## The keys -/

/-- The keys that are texts. -/
def textKeys : List (Json × Json) → List PyText
  | [] => []
  | (.str s, _) :: items => s :: textKeys items
  | _ :: items => textKeys items

theorem keys_of_textFields {items : List (Json × Json)} {fields : List (PyText × Json)}
    (h : textFields items = some fields) : fields.map Prod.fst = textKeys items := by
  induction items generalizing fields with
  | nil =>
    obtain rfl := Option.some.inj h
    rfl
  | cons item items ih =>
    obtain ⟨key, value⟩ := item
    cases key with
    | str key =>
      rw [textFields] at h
      obtain ⟨rest, hrest, rfl⟩ := Option.map_eq_some_iff.mp h
      rw [List.map_cons, ih hrest, textKeys]
    | null | bool _ | int _ | float _ | arr _ | obj _ => cases h

/-- Setting an item adds at most a key that was not there. -/
theorem textKeys_setItem (key value : Json) (items : List (Json × Json)) :
    textKeys (setItem key value items) = textKeys items ∨
      ∃ s, key = .str s ∧ s ∉ textKeys items ∧ textKeys (setItem key value items) = textKeys items ++ [s] := by
  induction items with
  | nil =>
    cases key with
    | str s => exact .inr ⟨s, rfl, List.not_mem_nil, rfl⟩
    | null | bool _ | int _ | float _ | arr _ | obj _ => exact .inl rfl
  | cons item items ih =>
    obtain ⟨k, v⟩ := item
    rw [setItem]
    split_ifs with hk
    · exact .inl (by cases k <;> rfl)
    · rcases ih with ih | ⟨s, rfl, hs, ih⟩
      · exact .inl (by cases k <;> simp only [textKeys, ih])
      · refine .inr ⟨s, rfl, ?_, by cases k <;> simp only [textKeys, ih, List.cons_append]⟩
        cases k with
        | str k =>
          have hne : s ≠ k := fun hsk => hk (by simp [sameKey, hsk])
          simp [textKeys, hs, hne]
        | null | bool _ | int _ | float _ | arr _ | obj _ => exact hs

theorem nodup_textKeys_setItem (key value : Json) {items : List (Json × Json)} (h : (textKeys items).Nodup) :
    (textKeys (setItem key value items)).Nodup := by
  rcases textKeys_setItem key value items with heq | ⟨s, -, hs, heq⟩
  · rw [heq]
    exact h
  · rw [heq]
    exact List.nodup_append.mpr ⟨h, List.nodup_singleton s, fun a ha b hb hab =>
      hs (by rw [← List.mem_singleton.mp hb, ← hab]; exact ha)⟩

theorem nodup_textKeys_update {i : ℕ} {values : List Json} {items out : List (Json × Json)}
    (h : update i values items = .ok out) (hnd : (textKeys items).Nodup) : (textKeys out).Nodup := by
  induction values generalizing i items with
  | nil =>
    cases h
    exact hnd
  | cons value values ih =>
    obtain ⟨⟨key, item⟩, -, h⟩ := except_bind_eq_ok.mp h
    dsimp only at h
    split_ifs at h
    exact ih h (nodup_textKeys_setItem key item hnd)

/-- **A dict of a value whose keys are texts** is an object without repeated keys. -/
theorem uniqueKeys_of_asItems {v : Json} {items : List (Json × Json)} {fields : List (PyText × Json)}
    (hu : v.UniqueKeys) (h : v.asItems = .ok items) (hfields : textFields items = some fields) :
    (obj fields).UniqueKeys := by
  refine ⟨?_, uniqueKeys_of_textFields hfields (asItems_uniqueKeys h hu)⟩
  rw [keys_of_textFields hfields]
  cases v with
  | null | bool _ | int _ | float _ => cases h
  | str s => exact nodup_textKeys_update h List.nodup_nil
  | arr values => exact nodup_textKeys_update h List.nodup_nil
  | obj fields' =>
    cases h
    rw [← keys_of_textFields (textFields_asItems fields')]
    exact hu.1

end Json

open Json

/-! ## What is written -/

/-- The JSON that is written for a dict: its members as they are written, those of objects in sorted order. -/
def writtenItems (items : List (Json × Json)) : Option Json :=
  match textFields items with
  | some fields => some (Json.obj fields).sortKeys
  | none => (sortedItems items).toOption.bind fun sorted =>
    (writtenFields sorted).map fun fields => .obj (sortFields fields)

theorem memberReads_renderFields {fields : List (PyText × Json)} {members : List Member}
    (h : renderFields fields = some members) (hu : UniqueFields fields) :
    List.Forall₂ MemberReads members (sortFields fields) := by
  induction fields generalizing members with
  | nil =>
    obtain rfl := Option.some.inj h
    exact .nil
  | cons f fields ih =>
    obtain ⟨key, v⟩ := f
    cases key with
    | lone codes hcodes => cases h
    | utf8 key =>
      rw [renderFields] at h
      obtain ⟨c, hc, h⟩ := Option.bind_eq_some_iff.mp h
      obtain ⟨rest, hrest, rfl⟩ := Option.map_eq_some_iff.mp h
      exact .cons ⟨rfl, reads_canonical hc hu.1⟩ (ih hrest hu.2)

theorem uniqueFields_writtenFields {items : List (Json × Json)} {fields : List (PyText × Json)}
    (h : writtenFields items = some fields) (hu : ∀ item ∈ items, item.2.UniqueKeys) : UniqueFields fields := by
  induction items generalizing fields with
  | nil =>
    obtain rfl := Option.some.inj h
    trivial
  | cons item items ih =>
    obtain ⟨key, value⟩ := item
    rw [writtenFields] at h
    obtain ⟨text, -, h⟩ := Option.bind_eq_some_iff.mp h
    obtain ⟨rest, hrest, h⟩ := Option.bind_eq_some_iff.mp h
    obtain rfl := Option.some.inj h
    obtain ⟨hvalue, hvalues⟩ := List.forall_mem_cons.mp hu
    exact ⟨hvalue, ih hrest hvalues⟩

theorem sortedItems_perm {items sorted : List (Json × Json)} (h : sortedItems items = .ok sorted) :
    sorted.Perm items := by
  rw [sortedItems] at h
  split_ifs at h
  · cases h
    exact .refl _
  · cases h
    exact List.perm_insertionSort _ _

/-- **The text of a payload is read as what is written for it.** -/
theorem reads_dumpsItems {items : List (Json × Json)} {c : List Char} (h : dumpsItems items = .ok (some c))
    (hu : ∀ item ∈ items, item.2.UniqueKeys) : ∃ j, writtenItems items = some j ∧ Reads c j := by
  rw [dumpsItems] at h
  rw [writtenItems]
  cases hfields : textFields items with
  | some fields =>
    simp only [hfields] at h
    have hc := Except.ok.inj h
    rw [canonical, render] at hc
    obtain ⟨members, hmembers, rfl⟩ := Option.map_eq_some_iff.mp hc
    refine ⟨_, rfl, ?_⟩
    rw [sortKeys]
    exact reads_renderObject (memberReads_renderFields hmembers (uniqueKeys_of_textFields hfields hu))
  | none =>
    simp only [hfields] at h
    cases hsorted : sortedItems items with
    | error e =>
      rw [hsorted] at h
      cases h
    | ok sorted =>
      simp only [hsorted, bind, Except.bind, Except.ok.injEq] at h
      obtain ⟨fields, hwritten, h⟩ := Option.bind_eq_some_iff.mp h
      obtain ⟨members, hmembers, h⟩ := Option.bind_eq_some_iff.mp h
      obtain rfl := Option.some.inj h
      refine ⟨.obj (sortFields fields), by simp [Except.toOption, hwritten], ?_⟩
      refine reads_members (memberReads_renderFields hmembers (uniqueFields_writtenFields hwritten ?_))
      exact fun item hitem => hu item ((sortedItems_perm hsorted).mem_iff.mp hitem)

end Rpr
