import PathwayRuntime.Python.Canonical

/-!
# Values that differ in the order of their members only

* `leaves_sortKeys`, `depth_sortKeys`: sorting changes neither the scalars nor the nesting.
* **`canonical_congr`**: values with the same sorted form have one canonical text.
-/

set_option autoImplicit false

namespace Rpr

namespace Json

/-- A member of the sorted fields is a field, sorted. -/
theorem forall_mem_sortedFields {fields : List (PyText × Json)} {P : PyText × Json → Prop} :
    (∀ f ∈ (sortFields fields).insertionSort fun a b => a.1.le b.1 = true, P f) ↔
      ∀ f ∈ fields, P (f.1, f.2.sortKeys) := by
  rw [sortFields_eq_map]
  simp only [List.mem_insertionSort, List.forall_mem_map]

mutual
/-- Sorting keeps the scalars and the keys. -/
theorem leaves_sortKeys {P : Json → Prop} (j : Json) : j.sortKeys.Leaves P ↔ j.Leaves P := by
  match j with
  | .null | .bool _ | .int _ | .float _ | .str _ => exact Iff.rfl
  | .arr items => exact leavesItems_sortItems items
  | .obj fields =>
    rw [sortKeys, Leaves, Leaves, leavesFields_iff, forall_mem_sortedFields, leavesFields_iff]
    exact leavesFields_sortFields fields

theorem leavesItems_sortItems {P : Json → Prop} (items : List Json) :
    LeavesItems P (sortItems items) ↔ LeavesItems P items := by
  match items with
  | [] => exact Iff.rfl
  | x :: items => rw [sortItems, LeavesItems, LeavesItems, leaves_sortKeys x, leavesItems_sortItems items]

theorem leavesFields_sortFields {P : Json → Prop} (fields : List (PyText × Json)) :
    (∀ f ∈ fields, P (.str f.1) ∧ f.2.sortKeys.Leaves P) ↔ ∀ f ∈ fields, P (.str f.1) ∧ f.2.Leaves P := by
  match fields with
  | [] => exact ⟨fun _ _ h => (List.not_mem_nil h).elim, fun _ _ h => (List.not_mem_nil h).elim⟩
  | (k, v) :: fields =>
    rw [List.forall_mem_cons, List.forall_mem_cons, leaves_sortKeys v, leavesFields_sortFields fields]
end

theorem depthFields_ofJson_le {fields : List (PyText × Json)} {n : ℕ} :
    PyValue.depthFields (PyValue.ofJsonFields fields) ≤ n ↔ ∀ f ∈ fields, (PyValue.ofJson f.2).depth ≤ n := by
  induction fields with
  | nil => exact ⟨fun _ _ h => (List.not_mem_nil h).elim, fun _ => Nat.zero_le _⟩
  | cons f fields ih => rw [PyValue.ofJsonFields, PyValue.depthFields, max_le_iff, ih, List.forall_mem_cons]

mutual
/-- Sorting keeps the nesting. -/
theorem depth_sortKeys_le (j : Json) {n : ℕ} :
    (PyValue.ofJson j.sortKeys).depth ≤ n ↔ (PyValue.ofJson j).depth ≤ n := by
  match j with
  | .null | .bool _ | .int _ | .float _ | .str _ => exact Iff.rfl
  | .arr items =>
    cases n with
    | zero => exact iff_of_false (Nat.not_succ_le_zero _) (Nat.not_succ_le_zero _)
    | succ n =>
      rw [sortKeys, PyValue.ofJson, PyValue.ofJson, PyValue.depth, PyValue.depth, Nat.add_le_add_iff_right,
        Nat.add_le_add_iff_right]
      exact depthItems_sortItems_le items
  | .obj fields =>
    cases n with
    | zero => exact iff_of_false (Nat.not_succ_le_zero _) (Nat.not_succ_le_zero _)
    | succ n =>
      rw [sortKeys, PyValue.ofJson, PyValue.ofJson, PyValue.depth, PyValue.depth, Nat.add_le_add_iff_right,
        Nat.add_le_add_iff_right, depthFields_ofJson_le, forall_mem_sortedFields, depthFields_ofJson_le]
      exact depthFields_sortFields_le fields

theorem depthItems_sortItems_le (items : List Json) {n : ℕ} :
    PyValue.depthItems (PyValue.ofJsonItems (sortItems items)) ≤ n ↔
      PyValue.depthItems (PyValue.ofJsonItems items) ≤ n := by
  match items with
  | [] => exact Iff.rfl
  | x :: items =>
    rw [sortItems, PyValue.ofJsonItems, PyValue.ofJsonItems, PyValue.depthItems, PyValue.depthItems, max_le_iff,
      max_le_iff, depth_sortKeys_le x, depthItems_sortItems_le items]

theorem depthFields_sortFields_le (fields : List (PyText × Json)) {n : ℕ} :
    (∀ f ∈ fields, (PyValue.ofJson f.2.sortKeys).depth ≤ n) ↔ ∀ f ∈ fields, (PyValue.ofJson f.2).depth ≤ n := by
  match fields with
  | [] => exact ⟨fun _ _ h => (List.not_mem_nil h).elim, fun _ _ h => (List.not_mem_nil h).elim⟩
  | (k, v) :: fields =>
    rw [List.forall_mem_cons, List.forall_mem_cons, depth_sortKeys_le v, depthFields_sortFields_le fields]
end

theorem depth_sortKeys (j : Json) : (PyValue.ofJson j.sortKeys).depth = (PyValue.ofJson j).depth :=
  Nat.le_antisymm ((depth_sortKeys_le j).mpr (Nat.le_refl _)) ((depth_sortKeys_le j).mp (Nat.le_refl _))

/-- **Values with the same sorted form have one canonical text.** -/
theorem canonical_congr {j j' : Json} {c : List Char} (hu : j.UniqueKeys) (hu' : j'.UniqueKeys)
    (hsort : j.sortKeys = j'.sortKeys) (h : canonical j = some c) : canonical j' = some c := by
  obtain ⟨hencodable, hshort, -⟩ := render_eq_some j h
  have hencodable' : j'.Leaves IsEncodable := (leaves_sortKeys j').mp (hsort ▸ (leaves_sortKeys j).mpr hencodable)
  have hshort' : j'.Leaves IsShort := (leaves_sortKeys j').mp (hsort ▸ (leaves_sortKeys j).mpr hshort)
  obtain ⟨c', h'⟩ := exists_render j' hencodable' hshort'
  have hc := canonical_sortKeys hu h
  rw [hsort, canonical_sortKeys hu' h'] at hc
  exact h'.trans hc

end Json

end Rpr
