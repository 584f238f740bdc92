import PathwayRuntime.Python.Sorted

/-!
# Setting the items of a dict

* `setField`: `output[key] = value`.
* `mem_setField`: the members are the one that was set and those under other keys.
* `uniqueFields_setField`: no key is repeated.
-/

set_option autoImplicit false

namespace Rpr

/-- `output[key] = value`. -/
def setField (key : PyText) (value : Json) : List (PyText × Json) → List (PyText × Json)
  | [] => [(key, value)]
  | (k, v) :: fields => if k = key then (k, value) :: fields else (k, v) :: setField key value fields

@[simp] theorem lookup_setField_self (key : PyText) (v : Json) (fields : List (PyText × Json)) :
    (setField key v fields).lookup key = some v := by
  induction fields with
  | nil => simp [setField]
  | cons f fields ih =>
    obtain ⟨k, w⟩ := f
    by_cases hk : k = key
    · simp [setField, hk]
    · have hk' : (key == k) = false := by simpa using Ne.symm hk
      simp [setField, hk, List.lookup_cons, hk', ih]

theorem lookup_setField_ne {key key' : PyText} (h : key' ≠ key) (v : Json)
    (fields : List (PyText × Json)) : (setField key v fields).lookup key' = fields.lookup key' := by
  induction fields with
  | nil =>
    have h' : (key' == key) = false := by simpa using h
    simp [setField, List.lookup_cons, h']
  | cons f fields ih =>
    obtain ⟨k, w⟩ := f
    by_cases hk : k = key
    · subst hk
      have h' : (key' == k) = false := by simpa using h
      simp [setField, List.lookup_cons, h']
    · by_cases hk' : key' = k
      · simp [setField, hk, hk']
      · have hk'' : (key' == k) = false := by simpa using hk'
        simp [setField, hk, List.lookup_cons, hk'', ih]

/-- A member under a new key comes last. -/
theorem setField_of_notMem {key : PyText} {value : Json} {fields : List (PyText × Json)}
    (h : key ∉ fields.map Prod.fst) : setField key value fields = fields ++ [(key, value)] := by
  induction fields with
  | nil => rfl
  | cons f fields ih =>
    obtain ⟨k, v⟩ := f
    rw [List.map_cons, List.mem_cons, not_or] at h
    rw [setField, if_neg (Ne.symm h.1), ih h.2]
    rfl

/-- Setting a member replaces the one under its key. -/
theorem mem_setField {key : PyText} {v : Json} {fields : List (PyText × Json)}
    (hnd : (fields.map Prod.fst).Nodup) {f : PyText × Json} :
    f ∈ setField key v fields ↔ f = (key, v) ∨ f ∈ fields ∧ f.1 ≠ key := by
  induction fields with
  | nil => simp [setField]
  | cons g fields ih =>
    obtain ⟨k, w⟩ := g
    obtain ⟨hk, hnd⟩ := List.nodup_cons.mp hnd
    rw [setField]
    split_ifs with hkey
    · subst hkey
      have hne : ∀ f ∈ fields, f.1 ≠ k := fun f hf hfk => hk (List.mem_map.mpr ⟨f, hf, hfk⟩)
      rw [List.mem_cons, List.mem_cons]
      constructor
      · rintro (rfl | hf)
        · exact .inl rfl
        · exact .inr ⟨.inr hf, hne f hf⟩
      · rintro (rfl | ⟨rfl | hf, hfk⟩)
        · exact .inl rfl
        · exact absurd rfl hfk
        · exact .inr hf
    · rw [List.mem_cons, ih hnd, List.mem_cons]
      constructor
      · rintro (rfl | rfl | ⟨hf, hfk⟩)
        · exact .inr ⟨.inl rfl, hkey⟩
        · exact .inl rfl
        · exact .inr ⟨.inr hf, hfk⟩
      · rintro (rfl | ⟨rfl | hf, hfk⟩)
        · exact .inr (.inl rfl)
        · exact .inl rfl
        · exact .inr (.inr ⟨hf, hfk⟩)

theorem nodup_setField {key : PyText} {v : Json} {fields : List (PyText × Json)}
    (hnd : (fields.map Prod.fst).Nodup) : ((setField key v fields).map Prod.fst).Nodup := by
  induction fields with
  | nil => exact List.nodup_singleton key
  | cons f fields ih =>
    obtain ⟨k, w⟩ := f
    obtain ⟨hk, hrest⟩ := List.nodup_cons.mp hnd
    rw [setField]
    split_ifs with hkey
    · exact hnd
    · refine List.nodup_cons.mpr ⟨fun hmem => ?_, ih hrest⟩
      obtain ⟨f, hf, hfk⟩ := List.mem_map.mp hmem
      rcases (mem_setField hrest).mp hf with rfl | ⟨hf, -⟩
      · exact hkey hfk.symm
      · exact hk (List.mem_map.mpr ⟨f, hf, hfk⟩)

/-- Setting a member keeps keys unique. -/
theorem uniqueFields_setField {key : PyText} {v : Json} {fields : List (PyText × Json)}
    (hnd : (fields.map Prod.fst).Nodup) (hf : Json.UniqueFields fields) (hv : v.UniqueKeys) :
    ((setField key v fields).map Prod.fst).Nodup ∧ Json.UniqueFields (setField key v fields) := by
  refine ⟨nodup_setField hnd, Json.uniqueFields_iff.mpr fun f hmem => ?_⟩
  rcases (mem_setField hnd).mp hmem with rfl | ⟨hmem, -⟩
  · exact hv
  · exact Json.uniqueFields_iff.mp hf f hmem

end Rpr
