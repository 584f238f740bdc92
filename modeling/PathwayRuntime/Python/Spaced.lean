import PathwayRuntime.Python.Loaded
import PathwayRuntime.Python.Repr

/-!
# `json.dumps` with its own separators

`json.dumps(value, sort_keys=True, ensure_ascii=False)` writes a space behind every comma and every colon.

* `Json.spaced`: the characters it writes; `Json.unlimitedLoads`: `json.loads` of a text, however deeply it is nested.
* **`exists_spaced`**: what has a canonical text is written, and is read as the value with its members sorted.
* `JsonCodec.spaced`: the two as a codec.
-/

set_option autoImplicit false

namespace Rpr

namespace Json

/-! ## What is written -/

/-- A member, with a space behind its colon. -/
def Member.spacedText (m : Member) : List Char := '"' :: m.key.toList.flatMap escape ++ ['"', ':', ' '] ++ m.value

mutual
/-- The characters of `json.dumps(j, sort_keys=True, ensure_ascii=False)`. -/
def spaced : Json → Option (List Char)
  | .arr items => (spacedItems items).map fun xs => '[' :: joined xs ++ [']']
  | .obj fields => (spacedFields fields).map fun members =>
      '{' :: joined ((members.insertionSort fun a b => a.le b = true).map Member.spacedText) ++ ['}']
  | .null => render .null
  | .bool b => render (.bool b)
  | .int i => render (.int i)
  | .float x => render (.float x)
  | .str s => render (.str s)

def spacedItems : List Json → Option (List (List Char))
  | [] => some []
  | x :: xs => (spaced x).bind fun c => (spacedItems xs).map (c :: ·)

def spacedFields : List (PyText × Json) → Option (List Member)
  | [] => some []
  | (.utf8 k, v) :: fields => (spaced v).bind fun c => (spacedFields fields).map (⟨k, c⟩ :: ·)
  | (.lone _ _, _) :: _ => none
end

/-! ## What is read -/

/-- Texts joined with spaces are texts behind spaces between commas. -/
theorem joined_eq_commas (x : List Char) (xs : List (List Char)) :
    joined (x :: xs) = commas (x :: xs.map (' ' :: ·)) := by
  rw [joined]
  induction xs generalizing x with
  | nil => exact List.append_nil x
  | cons y ys ih =>
    have htail : tailed (y :: ys) = ',' :: ' ' :: (y ++ tailed ys) := by simp [tailed]
    rw [htail, List.map_cons, commas_cons_cons, ih y]
    cases ys with
    | nil => rfl
    | cons z zs => rw [List.map_cons, commas_cons_cons, commas_cons_cons]; rfl

theorem forall₂_space {α : Type} {R : List Char → α → Prop} {xs : List (List Char)} {as : List α}
    (h : List.Forall₂ R xs as) (hbegins : ∀ x a, R x a → BeginsValue x) :
    List.Forall₂ (Spaced R) (xs.map (' ' :: ·)) as :=
  List.forall₂_map_left_iff.mpr (h.imp fun x a hx => (Spaced.of_begins hx (hbegins x a hx)).space)

section Read

variable {py : JsonPlatform} {hooks : JsonHooks} {k : ℕ}

/-- An array is read. -/
theorem readAs_joinedItems {xs : List (List Char)} {vs : List PyValue} (h : List.Forall₂ (ReadAs py hooks k) xs vs) :
    ReadAs py hooks (k + 1) ('[' :: joined xs ++ [']']) (.list vs) := by
  cases h with
  | nil => exact readAs_noItems
  | cons hx h =>
    rw [joined_eq_commas]
    exact readAs_spacedItems hx (forall₂_space h fun _ _ hy => hy.1)

/-- A member that was written is read as its field. -/
theorem MemberReadAs.spacedText {m : Member} {f : PyText × Json} (h : MemberReadAs py hooks k m f) :
    ReadMember py hooks k m.spacedText (PyKey.str f.1, PyValue.ofJson f.2) := by
  refine ⟨f.1, '"' :: m.key.toList.flatMap escape ++ ['"'], ' ' :: m.value, rfl, by rw [h.1]; rfl, ?_,
    (Spaced.of_begins h.2 h.2.1).space⟩
  rw [Member.spacedText, memberText]
  simp

/-- An object is read with its members sorted. -/
theorem readAs_joinedMembers (hhooks : hooks.KeepsObjects) {members : List Member} {fields : List (PyText × Json)}
    (hnd : (fields.map Prod.fst).Nodup) (h : List.Forall₂ (MemberReadAs py hooks k) members fields) :
    ReadAs py hooks (k + 1)
      ('{' :: joined ((members.insertionSort fun a b => a.le b = true).map Member.spacedText) ++ ['}'])
      (.dict (PyValue.ofJsonFields (fields.insertionSort fun a b => a.1.le b.1 = true))) := by
  have hsorted := forall₂_insertionSort (r := fun a b : Member => a.le b = true)
    (s := fun a b : PyText × Json => a.1.le b.1 = true) (fun _ _ _ _ => MemberReadAs.le_iff) h
  have hnodup : ((fields.insertionSort fun a b => a.1.le b.1 = true).map Prod.fst).Nodup :=
    (((List.perm_insertionSort _ fields).map Prod.fst).nodup_iff).mpr hnd
  have hkeep : ∀ pairs, PyValue.ofJsonFields pairs =
      PyValue.ofJsonFields (fields.insertionSort fun a b => a.1.le b.1 = true) →
      hooks.objectPairs pairs = .ok (.obj pairs) := fun pairs hpairs => by
    rw [ofJsonFields_inj pairs hpairs]
    exact hhooks _ hnodup
  generalize fields.insertionSort (fun a b => a.1.le b.1 = true) = sorted at hsorted hkeep ⊢
  generalize members.insertionSort (fun a b => a.le b = true) = written at hsorted ⊢
  cases hsorted with
  | nil => exact readAs_noMembers (hkeep [] rfl)
  | cons hm hms =>
    rw [List.map_cons, joined_eq_commas]
    refine readAs_spacedMembers hkeep hm.spacedText (forall₂_space ?_ fun _ _ hy => hy.begins)
    rw [ofJsonFields_eq_map]
    exact List.forall₂_map_left_iff.mpr (List.forall₂_map_right_iff.mpr (hms.imp fun _ _ => MemberReadAs.spacedText))

/-! ## Nesting -/

theorem length_le_joined {x : List Char} {xs : List (List Char)} (h : x ∈ xs) : x.length ≤ (joined xs).length := by
  cases xs with
  | nil => cases h
  | cons y ys =>
    rw [joined, List.length_append]
    rcases List.mem_cons.mp h with rfl | h
    · omega
    · have htail : x.length ≤ (tailed ys).length := by
        obtain ⟨before, after, rfl⟩ := List.append_of_mem h
        simp only [tailed, List.flatMap_append, List.flatMap_cons, List.length_append, List.length_cons]
        omega
      omega

/-- The value of a member is no longer than the text of the object. -/
theorem length_le_joinedMembers {m : Member} {members : List Member} (h : m ∈ members) : m.value.length ≤
    (joined ((members.insertionSort fun a b => a.le b = true).map Member.spacedText)).length := by
  have hmem : m ∈ members.insertionSort fun a b => a.le b = true := (List.mem_insertionSort _).mpr h
  have hvalue : m.value.length ≤ m.spacedText.length := by
    rw [Member.spacedText, List.length_append]
    exact Nat.le_add_left _ _
  exact hvalue.trans (length_le_joined (List.mem_map_of_mem hmem))

end Read

/-- The text is read as the value with its members sorted, wherever its floats are read back. -/
def ReadsSorted (j : Json) (text : List Char) : Prop :=
  ∀ (py : JsonPlatform) (hooks : JsonHooks) (k : ℕ), hooks.KeepsObjects → j.Leaves (ReadsFloats py hooks) →
    (PyValue.ofJson j).depth ≤ k → ReadAs py hooks k text (PyValue.ofJson j.sortKeys)

/-- The text of a value without members. -/
theorem exists_spaced_leaf {j : Json} {c : List Char} (h : render j = some c) (hsame : spaced j = render j)
    (hu : j.UniqueKeys) (hdepth : (PyValue.ofJson j).depth = 0) :
    ∃ text, spaced j = some text ∧ (PyValue.ofJson j).depth ≤ text.length ∧ ReadsSorted j text :=
  ⟨c, hsame.trans h, hdepth ▸ Nat.zero_le _, fun _ _ _ hhooks hread hk => readAs_render hhooks j h hu hread hk⟩

attribute [local irreducible] intLimit in
mutual
/-- **What has a canonical text is written**, and read as the value with its members sorted. -/
theorem exists_spaced (j : Json) {c : List Char} (h : render j = some c) (hu : j.UniqueKeys) :
    ∃ text, spaced j = some text ∧ (PyValue.ofJson j).depth ≤ text.length ∧ ReadsSorted j text := by
  match j with
  | .null | .bool _ | .float _ | .str _ => exact exists_spaced_leaf h rfl hu rfl
  | .int i => exact exists_spaced_leaf h (by rw [spaced]) hu rfl
  | .arr items =>
    rw [render] at h
    obtain ⟨cs, hcs, -⟩ := Option.map_eq_some_iff.mp h
    obtain ⟨xs, hxs, hdepth, hread⟩ := exists_spacedItems items hcs hu
    refine ⟨_, by rw [spaced, hxs]; rfl, ?_, fun py hooks k hhooks hleaves hk => ?_⟩
    · have hnested := hdepth _ fun x hx => length_le_joined hx
      rw [PyValue.ofJson, PyValue.depth, List.length_append, List.length_cons]
      omega
    · obtain ⟨k, rfl⟩ := Nat.exists_eq_add_of_le' (Nat.le_trans (Nat.le_add_left 1 _) hk)
      exact readAs_joinedItems (hread py hooks k hhooks hleaves (Nat.le_of_succ_le_succ hk))
  | .obj fields =>
    rw [render] at h
    obtain ⟨cs, hcs, -⟩ := Option.map_eq_some_iff.mp h
    obtain ⟨members, hmembers, hdepth, hread⟩ := exists_spacedFields fields hcs hu.2
    refine ⟨_, by rw [spaced, hmembers]; rfl, ?_, fun py hooks k hhooks hleaves hk => ?_⟩
    · have hnested := hdepth _ fun m hm => length_le_joinedMembers hm
      rw [PyValue.ofJson, PyValue.depth, List.length_append, List.length_cons]
      omega
    · obtain ⟨k, rfl⟩ := Nat.exists_eq_add_of_le' (Nat.le_trans (Nat.le_add_left 1 _) hk)
      refine readAs_joinedMembers hhooks ?_ (hread py hooks k hhooks hleaves (Nat.le_of_succ_le_succ hk))
      rw [keys_sortFields]
      exact hu.1

theorem exists_spacedItems (items : List Json) {cs : List (List Char)} (h : renderItems items = some cs)
    (hu : UniqueItems items) : ∃ xs, spacedItems items = some xs ∧
      (∀ n, (∀ x ∈ xs, x.length ≤ n) → PyValue.depthItems (PyValue.ofJsonItems items) ≤ n) ∧
      ∀ (py : JsonPlatform) (hooks : JsonHooks) (k : ℕ), hooks.KeepsObjects →
        LeavesItems (ReadsFloats py hooks) items → PyValue.depthItems (PyValue.ofJsonItems items) ≤ k →
        List.Forall₂ (ReadAs py hooks k) xs (PyValue.ofJsonItems (sortItems items)) := by
  match items with
  | [] => exact ⟨[], rfl, fun n _ => Nat.zero_le n, fun _ _ _ _ _ _ => .nil⟩
  | j :: items =>
    rw [renderItems] at h
    obtain ⟨c, hc, h⟩ := Option.bind_eq_some_iff.mp h
    obtain ⟨rest, hrest, -⟩ := Option.map_eq_some_iff.mp h
    obtain ⟨x, hx, hdepth, hread⟩ := exists_spaced j hc hu.1
    obtain ⟨xs, hxs, hdepths, hreads⟩ := exists_spacedItems items hrest hu.2
    refine ⟨x :: xs, by rw [spacedItems, hx, hxs]; rfl, fun n hn => ?_, fun py hooks k hhooks hleaves hk => ?_⟩
    · exact max_le (hdepth.trans (hn x List.mem_cons_self))
        (hdepths n fun y hy => hn y (List.mem_cons_of_mem x hy))
    · exact .cons (hread py hooks k hhooks hleaves.1 ((le_max_left _ _).trans hk))
        (hreads py hooks k hhooks hleaves.2 ((le_max_right _ _).trans hk))

theorem exists_spacedFields (fields : List (PyText × Json)) {cs : List Member} (h : renderFields fields = some cs)
    (hu : UniqueFields fields) : ∃ members, spacedFields fields = some members ∧
      (∀ n, (∀ m ∈ members, m.value.length ≤ n) → PyValue.depthFields (PyValue.ofJsonFields fields) ≤ n) ∧
      ∀ (py : JsonPlatform) (hooks : JsonHooks) (k : ℕ), hooks.KeepsObjects →
        LeavesFields (ReadsFloats py hooks) fields → PyValue.depthFields (PyValue.ofJsonFields fields) ≤ k →
        List.Forall₂ (MemberReadAs py hooks k) members (sortFields fields) := by
  match fields with
  | [] => exact ⟨[], rfl, fun n _ => Nat.zero_le n, fun _ _ _ _ _ _ => .nil⟩
  | (.lone _ _, _) :: _ => cases h
  | (.utf8 key, j) :: fields =>
    rw [renderFields] at h
    obtain ⟨c, hc, h⟩ := Option.bind_eq_some_iff.mp h
    obtain ⟨rest, hrest, -⟩ := Option.map_eq_some_iff.mp h
    obtain ⟨x, hx, hdepth, hread⟩ := exists_spaced j hc hu.1
    obtain ⟨members, hmembers, hdepths, hreads⟩ := exists_spacedFields fields hrest hu.2
    refine ⟨⟨key, x⟩ :: members, by rw [spacedFields, hx, hmembers]; rfl, fun n hn => ?_,
      fun py hooks k hhooks hleaves hk => ?_⟩
    · exact max_le (hdepth.trans (hn _ List.mem_cons_self))
        (hdepths n fun m hm => hn m (List.mem_cons_of_mem _ hm))
    · exact .cons ⟨rfl, hread py hooks k hhooks hleaves.2.1 ((le_max_left _ _).trans hk)⟩
        (hreads py hooks k hhooks hleaves.2.2 ((le_max_right _ _).trans hk))
end

/-- `json.loads(text)`, however deeply the text is nested. -/
def unlimitedLoads (text : List Char) : Except PyException Json :=
  loads (plainPlatform text.length) defaultHooks text

/-- **What is written is loaded**, with the members of every object sorted. -/
theorem loads_spaced {j : Json} (hcanonical : (canonical j).isSome) (hu : j.UniqueKeys) :
    ∃ text, spaced j = some text ∧ unlimitedLoads text = .ok j.sortKeys := by
  obtain ⟨c, hc⟩ := Option.isSome_iff_exists.mp hcanonical
  obtain ⟨text, htext, hdepth, hread⟩ := exists_spaced j hc hu
  refine ⟨text, htext, ?_⟩
  have hfloats : j.Leaves (ReadsFloats (plainPlatform text.length) defaultHooks) := by
    refine leaves_of_forall (fun i => IsFloat.readsFloats i ?_) j
    cases i with
    | float x => cases x <;> first | rfl | trivial
    | null | bool _ | int _ | str _ | arr _ | obj _ => trivial
  exact loads_of_readAs (hread _ _ _ defaultHooks_keepsObjects hfloats hdepth)

end Json

/-- `json.dumps(value, sort_keys=True, ensure_ascii=False)` and `json.loads`. -/
def JsonCodec.spaced : JsonCodec where
  Text := List Char
  dumps j := (Json.spaced j).getD []
  loads text := (Json.unlimitedLoads text).toOption.getD .null
  loads_dumps j hu hcanonical := by
    obtain ⟨text, htext, hloads⟩ := Json.loads_spaced hcanonical hu
    rw [htext, Option.getD_some, hloads]
    rfl

end Rpr
