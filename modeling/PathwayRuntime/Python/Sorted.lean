import Mathlib.Data.List.Lex
import Mathlib.Tactic.SplitIfs
import PathwayRuntime.Python.Value

/-!
# Members in sorted order

`json.dumps(sort_keys=True)` writes the members of every object sorted by their keys, and
`json.loads` reads them in the order they are written.

* `Json.sortKeys`: the value with the members of every object sorted; `Json.UniqueKeys`: no object has
  two members under one key.
* `JsonCodec`: `json.dumps` and `json.loads`.
* **`canonical_sortKeys`**: sorting does not change the canonical form.
* `sortKeys_sortKeys`, `get?_sortKeys`: sorting again, and looking up after sorting, change nothing.
-/

set_option autoImplicit false

namespace Rpr

/-- The code points of a text. -/
def PyText.codes : PyText → List ℕ
  | utf8 s => s.toList.map Char.toNat
  | lone codes _ => codes

/-- The order of texts: by code points. -/
def PyText.le : PyText → PyText → Bool
  | utf8 a, utf8 b => a ≤ b
  | a, b => a.codes ≤ b.codes

theorem PyText.le_iff (a b : PyText) : a.le b = true ↔ a.codes ≤ b.codes := by
  have hmap : ∀ xs ys : List Char, xs < ys ↔ xs.map Char.toNat < ys.map Char.toNat := by
    intro xs
    induction xs with
    | nil => intro ys; cases ys <;> simp
    | cons x xs ih =>
      intro ys
      cases ys with
      | nil => simp
      | cons y ys =>
        rw [List.map_cons, List.map_cons, List.cons_lt_cons_iff, List.cons_lt_cons_iff, ih, Char.toNat_inj]
        exact Iff.rfl
  cases a with
  | lone => exact decide_eq_true_iff
  | utf8 a =>
    cases b with
    | lone => exact decide_eq_true_iff
    | utf8 b =>
      rw [le, decide_eq_true_iff, ← String.not_lt, ← not_lt]
      exact not_congr (String.lt_iff.trans (hmap _ _))

/-- Members are compared by their keys. -/
instance : Std.Total fun a b : PyText × Json => a.1.le b.1 = true :=
  ⟨fun a b => by simpa only [PyText.le_iff] using le_total a.1.codes b.1.codes⟩

instance : IsTrans (PyText × Json) fun a b => a.1.le b.1 = true :=
  ⟨fun a b c hab hbc => by
    simp only [PyText.le_iff] at hab hbc ⊢
    exact hab.trans hbc⟩

namespace Json

mutual
/-- The value with the members of every object sorted by their keys. -/
def sortKeys : Json → Json
  | .null => .null
  | .bool b => .bool b
  | .int i => .int i
  | .float x => .float x
  | .str s => .str s
  | .arr items => .arr (sortItems items)
  | .obj fields => .obj ((sortFields fields).insertionSort fun a b => a.1.le b.1 = true)

def sortItems : List Json → List Json
  | [] => []
  | x :: xs => sortKeys x :: sortItems xs

/-- The members with sorted values. -/
def sortFields : List (PyText × Json) → List (PyText × Json)
  | [] => []
  | (k, v) :: fields => (k, sortKeys v) :: sortFields fields
end

mutual
/-- No object has two members under one key. -/
def UniqueKeys : Json → Prop
  | .arr items => UniqueItems items
  | .obj fields => (fields.map Prod.fst).Nodup ∧ UniqueFields fields
  | _ => True

def UniqueItems : List Json → Prop
  | [] => True
  | x :: xs => UniqueKeys x ∧ UniqueItems xs

def UniqueFields : List (PyText × Json) → Prop
  | [] => True
  | (_, v) :: fields => UniqueKeys v ∧ UniqueFields fields
end

theorem keys_sortFields (fields : List (PyText × Json)) :
    (sortFields fields).map Prod.fst = fields.map Prod.fst := by
  induction fields with
  | nil => rfl
  | cons f fields ih =>
    rw [sortFields, List.map_cons, List.map_cons, ih]

/-! ## Rendering sorted members -/

/-- The key of a member is the key of its field. -/
theorem keys_renderFields {fields : List (PyText × Json)} {members : List Member}
    (h : renderFields fields = some members) :
    members.map (fun m => PyText.utf8 m.key) = fields.map Prod.fst := by
  induction fields generalizing members with
  | nil =>
    cases h
    rfl
  | cons f fields ih =>
    obtain ⟨_ | _, v⟩ := f
    · rw [renderFields] at h
      obtain ⟨c, -, h⟩ := Option.bind_eq_some_iff.mp h
      obtain ⟨rest, hrest, rfl⟩ := Option.map_eq_some_iff.mp h
      rw [List.map_cons, List.map_cons, ih hrest]
    · cases h

/-- Fields in another order render to the same members in another order. -/
theorem renderFields_perm {fields fields' : List (PyText × Json)} (hperm : fields.Perm fields')
    {members : List Member} (h : renderFields fields = some members) :
    ∃ members', renderFields fields' = some members' ∧ members.Perm members' := by
  have hcons : ∀ {f : PyText × Json} {fs : List (PyText × Json)} {ms : List Member},
      renderFields (f :: fs) = some ms → ∃ m rest, renderFields fs = some rest ∧ ms = m :: rest ∧
        ∀ fs' rest', renderFields fs' = some rest' → renderFields (f :: fs') = some (m :: rest') := by
    intro f fs ms hms
    obtain ⟨_ | _, v⟩ := f
    · rw [renderFields] at hms
      obtain ⟨c, hc, hms⟩ := Option.bind_eq_some_iff.mp hms
      obtain ⟨rest, hrest, rfl⟩ := Option.map_eq_some_iff.mp hms
      refine ⟨_, rest, hrest, rfl, fun fs' rest' h' => ?_⟩
      rw [renderFields, hc, h']
      rfl
    · cases hms
  induction hperm generalizing members with
  | nil => exact ⟨members, h, .refl _⟩
  | cons f hperm ih =>
    obtain ⟨m, rest, hrest, rfl, hback⟩ := hcons h
    obtain ⟨rest', hrest', hp⟩ := ih hrest
    exact ⟨m :: rest', hback _ _ hrest', hp.cons m⟩
  | swap f g fields =>
    obtain ⟨m, rest, hrest, rfl, hback⟩ := hcons h
    obtain ⟨m', rest', hrest', rfl, hback'⟩ := hcons hrest
    exact ⟨m' :: m :: rest', hback' _ _ (hback _ _ hrest'), .swap _ _ _⟩
  | trans _ _ ih₁ ih₂ =>
    obtain ⟨ms, hms, hp⟩ := ih₁ h
    obtain ⟨ms', hms', hp'⟩ := ih₂ hms
    exact ⟨ms', hms', hp.trans hp'⟩

instance : Std.Total fun a b : Member => a.le b = true :=
  ⟨fun a b => by simpa [Member.le] using String.le_total a.key b.key⟩

instance : IsTrans Member fun a b => a.le b = true :=
  ⟨fun a b c hab hbc => by
    simp only [Member.le, decide_eq_true_eq] at hab hbc ⊢
    exact String.le_trans hab hbc⟩

/-- The order of members with different keys does not show in the object literal. -/
theorem renderObject_perm {members members' : List Member} (hperm : members.Perm members')
    (hnd : (members.map Member.key).Nodup) : renderObject members = renderObject members' := by
  have hsorted : ∀ ms : List Member,
      (ms.insertionSort fun a b => a.le b = true).Pairwise fun a b => a.le b = true :=
    fun ms => List.pairwise_insertionSort _ ms
  have heq : (members.insertionSort fun a b => a.le b = true) =
      members'.insertionSort fun a b => a.le b = true := by
    refine List.Perm.eq_of_pairwise (fun a b ha hb hab hba => ?_) (hsorted members) (hsorted members') ?_
    · have ha' : a ∈ members := (List.mem_insertionSort _).mp ha
      have hb' : b ∈ members := hperm.mem_iff.mpr ((List.mem_insertionSort _).mp hb)
      simp only [Member.le, decide_eq_true_eq] at hab hba
      exact List.inj_on_of_nodup_map hnd ha' hb' (String.le_antisymm hab hba)
    · exact ((List.perm_insertionSort _ members).trans hperm).trans
        (List.perm_insertionSort _ members').symm
  rw [renderObject, renderObject, heq]

attribute [local irreducible] intLimit in
mutual
theorem render_sortKeys (j : Json) {c : List Char} (hu : UniqueKeys j) (h : render j = some c) :
    render (sortKeys j) = some c := by
  match j with
  | .null | .bool _ | .float _ | .str _ => exact h
  | .int i => simpa only [sortKeys] using h
  | .arr items =>
    rw [render] at h
    obtain ⟨xs, hxs, rfl⟩ := Option.map_eq_some_iff.mp h
    rw [sortKeys, render, renderItems_sortItems items hu hxs]
    rfl
  | .obj fields =>
    rw [render] at h
    obtain ⟨members, hmembers, rfl⟩ := Option.map_eq_some_iff.mp h
    have hsorted := renderFields_sortFields fields hu.2 hmembers
    obtain ⟨members', hmembers', hperm⟩ := renderFields_perm (List.perm_insertionSort
      (fun a b : PyText × Json => a.1.le b.1 = true) (sortFields fields)).symm hsorted
    rw [sortKeys, render, hmembers', Option.map_some]
    refine congrArg some (renderObject_perm hperm ?_).symm
    have hkeys := keys_renderFields hmembers
    have hnd := hu.1
    rw [← hkeys] at hnd
    exact List.Nodup.of_map PyText.utf8 (by rwa [List.map_map])

theorem renderItems_sortItems (items : List Json) {xs : List (List Char)} (hu : UniqueItems items)
    (h : renderItems items = some xs) : renderItems (sortItems items) = some xs := by
  match items with
  | [] => exact h
  | x :: items =>
    rw [renderItems] at h
    obtain ⟨c, hc, h⟩ := Option.bind_eq_some_iff.mp h
    obtain ⟨rest, hrest, rfl⟩ := Option.map_eq_some_iff.mp h
    rw [sortItems, renderItems, render_sortKeys x hu.1 hc, renderItems_sortItems items hu.2 hrest]
    rfl

theorem renderFields_sortFields (fields : List (PyText × Json)) {members : List Member}
    (hu : UniqueFields fields) (h : renderFields fields = some members) :
    renderFields (sortFields fields) = some members := by
  match fields with
  | [] => exact h
  | (.lone _ _, _) :: _ => cases h
  | (.utf8 k, v) :: fields =>
    rw [renderFields] at h
    obtain ⟨c, hc, h⟩ := Option.bind_eq_some_iff.mp h
    obtain ⟨rest, hrest, rfl⟩ := Option.map_eq_some_iff.mp h
    rw [sortFields, renderFields, render_sortKeys v hu.1 hc, renderFields_sortFields fields hu.2 hrest]
    rfl
end

/-- **Sorting does not change the canonical form.** -/
theorem canonical_sortKeys {j : Json} {c : List Char} (hu : UniqueKeys j) (h : canonical j = some c) :
    canonical (sortKeys j) = some c :=
  render_sortKeys j hu h

/-! ## Sorted values -/

theorem sortFields_eq_map (fields : List (PyText × Json)) :
    sortFields fields = fields.map fun f => (f.1, f.2.sortKeys) := by
  induction fields with
  | nil => rfl
  | cons f fields ih => rw [sortFields, List.map_cons, ih]

mutual
/-- What is sorted stays as it is. -/
theorem sortKeys_sortKeys (j : Json) : j.sortKeys.sortKeys = j.sortKeys := by
  match j with
  | .null | .bool _ | .int _ | .float _ | .str _ => rfl
  | .arr items => rw [sortKeys, sortKeys, sortItems_sortItems items]
  | .obj fields =>
    have hmap : sortFields ((sortFields fields).insertionSort fun a b => a.1.le b.1 = true) =
        (sortFields (sortFields fields)).insertionSort fun a b => a.1.le b.1 = true := by
      rw [sortFields_eq_map, sortFields_eq_map (sortFields fields)]
      exact List.map_insertionSort _ _ _ _ fun _ _ _ _ => Iff.rfl
    rw [sortKeys, sortKeys, hmap, sortFields_sortFields fields,
      (List.pairwise_insertionSort _ _).insertionSort_eq]

theorem sortItems_sortItems (items : List Json) : sortItems (sortItems items) = sortItems items := by
  match items with
  | [] => rfl
  | x :: items => rw [sortItems, sortItems, sortKeys_sortKeys x, sortItems_sortItems items]

theorem sortFields_sortFields (fields : List (PyText × Json)) :
    sortFields (sortFields fields) = sortFields fields := by
  match fields with
  | [] => rfl
  | (k, v) :: fields => rw [sortFields, sortFields, sortKeys_sortKeys v, sortFields_sortFields fields]
end

/-- Under one key there is one member. -/
theorem lookup_eq_some {α β : Type} [BEq α] [LawfulBEq α] {fields : List (α × β)} (hnd : (fields.map Prod.fst).Nodup)
    {key : α} {v : β} : fields.lookup key = some v ↔ (key, v) ∈ fields := by
  induction fields with
  | nil => simp
  | cons f fields ih =>
    obtain ⟨k, u⟩ := f
    rw [List.map_cons, List.nodup_cons] at hnd
    by_cases hk : key = k
    · subst hk
      have hnot : (key, v) ∉ fields := fun h =>
        hnd.1 (List.mem_map.mpr ⟨_, h, rfl⟩)
      simp [hnot, eq_comm]
    · rw [List.lookup_cons, beq_eq_false_iff_ne.mpr hk, List.mem_cons]
      simp [ih hnd.2, hk]

/-- Members with distinct keys, in any order. -/
theorem perm_iff_lookup {α β : Type} [BEq α] [LawfulBEq α] {fields fields' : List (α × β)}
    (hnd : (fields.map Prod.fst).Nodup) (hnd' : (fields'.map Prod.fst).Nodup) :
    fields.Perm fields' ↔ ∀ key, fields.lookup key = fields'.lookup key := by
  rw [List.perm_ext_iff_of_nodup hnd.of_map hnd'.of_map, Prod.forall]
  refine forall_congr' fun key => ?_
  simp only [← lookup_eq_some hnd, ← lookup_eq_some hnd']
  exact Option.ext_iff.symm

theorem uniqueItems_iff {items : List Json} : UniqueItems items ↔ ∀ j ∈ items, j.UniqueKeys := by
  induction items with
  | nil => exact ⟨fun _ _ h => (List.not_mem_nil h).elim, fun _ => trivial⟩
  | cons j items ih => rw [UniqueItems, ih, List.forall_mem_cons]

theorem uniqueFields_iff {fields : List (PyText × Json)} :
    UniqueFields fields ↔ ∀ f ∈ fields, f.2.UniqueKeys := by
  induction fields with
  | nil => exact ⟨fun _ _ h => (List.not_mem_nil h).elim, fun _ => trivial⟩
  | cons f fields ih => rw [UniqueFields, ih, List.forall_mem_cons]

/-- The members of a value are values without repeated keys. -/
theorem UniqueKeys.get? {j v : Json} (hu : j.UniqueKeys) {key : PyText} (hv : j.get? key = some v) :
    v.UniqueKeys := by
  cases j with
  | obj fields => exact uniqueFields_iff.mp hu.2 (key, v) ((lookup_eq_some hu.1).mp hv)
  | null | bool _ | int _ | float _ | str _ | arr _ => cases hv

/-- Sorting keeps what is found under a key. -/
theorem get?_sortKeys {j : Json} (hu : j.UniqueKeys) (key : PyText) :
    j.sortKeys.get? key = (j.get? key).map sortKeys := by
  cases j with
  | obj fields =>
    have hperm := List.perm_insertionSort (fun a b : PyText × Json => a.1.le b.1 = true) (sortFields fields)
    have hnd : ((sortFields fields).map Prod.fst).Nodup := by
      rw [keys_sortFields]
      exact hu.1
    refine Option.ext fun v => ?_
    rw [sortKeys, get?, get?, lookup_eq_some ((hperm.map Prod.fst).nodup_iff.mpr hnd), hperm.mem_iff,
      sortFields_eq_map, Option.map_eq_some_iff]
    simp only [List.mem_map, Prod.mk.injEq, Prod.exists, lookup_eq_some hu.1]
    exact ⟨fun ⟨k, u, hmem, hk, hu⟩ => ⟨u, hk ▸ hmem, hu⟩, fun ⟨u, hmem, hu⟩ => ⟨key, u, hmem, rfl, hu⟩⟩
  | _ => rfl

end Json

/-- `json.dumps(sort_keys=True)` and `json.loads`: what is written is read back, with the members of
every object in the order they were written. -/
structure JsonCodec where
  Text : Type
  dumps : Json → Text
  loads : Text → Json
  loads_dumps : ∀ j : Json, j.UniqueKeys → (Json.canonical j).isSome → loads (dumps j) = j.sortKeys

end Rpr
