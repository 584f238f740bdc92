import PathwayRuntime.Model.Definition
import PathwayRuntime.Python.Loaded
import PathwayRuntime.Python.Resorted

/-!
# Definitions up to the order of members

* `Json.Rigid`, `Json.Plain`: a value sorting has no second form of; texts, `null` and lists of texts are such.
* `DecodedDefinition.toDict_uniqueKeys`, `DecodedDefinition.toDict_leaves`: what is written repeats no key, and its
  scalars are texts, `null` and the ones of the approval authority and the metadata.
* **`DecodedDefinition.fromDict_resorted`**, `PathwayDefinition.fromDict_resorted`: a definition is read back from its
  members in any order.
-/

set_option autoImplicit false

namespace Rpr

namespace Json

/-! ## Values with one form -/

/-- No other value has the same sorted form. -/
def Rigid (v : Json) : Prop := ∀ u : Json, u.sortKeys = v.sortKeys → u = v

/-- A text, `null` or a list of texts. -/
inductive Plain : Json → Prop
  | text (s : String) : Plain (.text s)
  | optText (s : Option String) : Plain (.optText s)
  | texts (xs : List String) : Plain (.arr (xs.map .text))

theorem eq_of_sortItems_texts {items : List Json} {xs : List String}
    (h : sortItems items = sortItems (xs.map .text)) : items = xs.map .text := by
  induction items generalizing xs with
  | nil =>
    cases xs with
    | nil => rfl
    | cons x xs => cases h
  | cons j items ih =>
    cases xs with
    | nil => cases h
    | cons x xs =>
      obtain ⟨hj, hitems⟩ := List.cons.inj h
      cases j with
      | str s => rw [List.map_cons, ih hitems, show Json.str s = .text x from hj]
      | null | bool _ | int _ | float _ | arr _ | obj _ => cases hj

theorem Plain.rigid {v : Json} (h : v.Plain) : v.Rigid := by
  intro u hu
  cases h with
  | text s => cases u <;> first | exact hu | cases hu
  | optText s => cases s <;> cases u <;> first | exact hu | cases hu
  | texts xs =>
    cases u with
    | arr items => rw [eq_of_sortItems_texts (Json.arr.inj hu)]
    | null | bool _ | int _ | float _ | str _ | obj _ => cases hu

theorem Plain.uniqueKeys {v : Json} (h : v.Plain) : v.UniqueKeys := by
  cases h with
  | text s => trivial
  | optText s => cases s <;> trivial
  | texts xs =>
    refine uniqueItems_iff.mpr fun j hj => ?_
    obtain ⟨x, -, rfl⟩ := List.mem_map.mp hj
    trivial

theorem Plain.leaves {v : Json} {P : Json → Prop} (hnull : P .null) (htext : ∀ s, P (.str s)) (h : v.Plain) :
    v.Leaves P := by
  cases h with
  | text s => exact htext s
  | optText s =>
    cases s with
    | none => exact hnull
    | some s => exact htext s
  | texts xs =>
    refine leavesItems_iff.mpr fun j hj => ?_
    obtain ⟨x, -, rfl⟩ := List.mem_map.mp hj
    exact htext x

theorem exists_obj_of_sortKeys {j : Json} {fields : List (PyText × Json)}
    (h : j.sortKeys = (Json.obj fields).sortKeys) : ∃ fields', j = .obj fields' := by
  cases j with
  | obj fields' => exact ⟨fields', rfl⟩
  | null | bool _ | int _ | float _ | str _ | arr _ => cases h

/-- Values with the same sorted form have the same members, up to sorting. -/
theorem map_get?_of_sortKeys {i j : Json} (hi : i.UniqueKeys) (hj : j.UniqueKeys) (h : i.sortKeys = j.sortKeys)
    (key : PyText) : (i.get? key).map sortKeys = (j.get? key).map sortKeys := by
  rw [← get?_sortKeys hi, ← get?_sortKeys hj, h]

/-- A member with one form is the same in both. -/
theorem get?_of_rigid {i j : Json} {key : PyText} (h : (i.get? key).map sortKeys = (j.get? key).map sortKeys)
    (hrigid : ∀ v, j.get? key = some v → v.Rigid) : i.get? key = j.get? key := by
  cases hv : j.get? key with
  | none =>
    rw [hv] at h
    exact Option.map_eq_none_iff.mp h
  | some v =>
    rw [hv] at h
    obtain ⟨u, hu, hsort⟩ := Option.map_eq_some_iff.mp h
    rw [hu, hrigid v hv u hsort]

end Json

open Json

/-! ## Routes -/

namespace ResponsibilityRoute

/-- The members of a route. -/
theorem plain_of_mem {r : ResponsibilityRoute} {fields : List (PyText × Json)} (hr : r.toDict = .obj fields)
    {f : PyText × Json} (h : f ∈ fields) : f.2.Plain := by
  obtain rfl := Json.obj.inj hr
  simp only [List.mem_cons, List.not_mem_nil, or_false] at h
  rcases h with rfl | rfl | rfl | rfl | rfl | rfl | rfl | rfl | rfl | rfl | rfl | rfl <;>
    first | exact .text _ | exact .texts _ | exact .optText _

theorem toDict_uniqueKeys (r : ResponsibilityRoute) : r.toDict.UniqueKeys :=
  ⟨by simp, uniqueFields_iff.mpr fun _ hf => (plain_of_mem rfl hf).uniqueKeys⟩

/-- Only the members count. -/
theorem fromDict_congr (py : Platform) {i j : Json} (h : ∀ key, i.get? key = j.get? key) :
    fromDict py i = fromDict py j := by
  simp only [fromDict, getItem, texts, optStr, h]

/-- A route is read back from its members in any order. -/
theorem fromDict_resorted (py : Platform) {r : ResponsibilityRoute} {j : Json} (hj : j.UniqueKeys)
    (h : j.sortKeys = r.toDict.sortKeys) : fromDict py j = .ok r := by
  have hget : ∀ key, j.get? key = r.toDict.get? key := fun key =>
    get?_of_rigid (map_get?_of_sortKeys hj r.toDict_uniqueKeys h key) fun v hv =>
      (plain_of_mem rfl ((lookup_eq_some r.toDict_uniqueKeys.1).mp hv)).rigid
  rw [fromDict_congr py hget, fromDict_toDict]

end ResponsibilityRoute

/-! ## Decoded definitions -/

namespace DecodedDefinition

variable {d : DecodedDefinition} {metadata : List (PyText × Json)}

/-- The members that are no texts: the approval authority, the metadata and the route. -/
def openKeys : List PyText := ["approval_authority", "metadata", "responsibility_route"]

/-- The members of a definition. -/
theorem mem_fields {f : PyText × Json}
    (h : f ∈ d.baseFields ++ (PyText.utf8 "metadata", Json.obj metadata) :: d.routeFields) :
    f = (.utf8 "approval_authority", d.approvalAuthority) ∨ f = (.utf8 "metadata", .obj metadata) ∨
      (f.1 = "responsibility_route" ∧ ∃ r, d.responsibilityRoute = some r ∧ f.2 = r.toDict) ∨
      f.1 ∉ openKeys ∧ f.2.Plain := by
  rcases List.mem_append.mp h with h | h
  · simp only [baseFields, List.mem_cons, List.not_mem_nil, or_false] at h
    rcases h with rfl | rfl | rfl | rfl | rfl | rfl | rfl | rfl | rfl | rfl | rfl | rfl | rfl <;>
      first
        | exact .inl rfl
        | exact .inr (.inr (.inr ⟨by simp [openKeys], .text _⟩))
  · rcases List.mem_cons.mp h with rfl | h
    · exact .inr (.inl rfl)
    · rw [routeFields] at h
      cases hroute : d.responsibilityRoute with
      | none =>
        rw [hroute] at h
        cases h
      | some r =>
        rw [hroute] at h
        obtain rfl := List.mem_singleton.mp h
        exact .inr (.inr (.inl ⟨rfl, r, rfl, rfl⟩))

theorem nodup_fields (d : DecodedDefinition) (metadata : List (PyText × Json)) :
    ((d.baseFields ++ (PyText.utf8 "metadata", Json.obj metadata) :: d.routeFields).map Prod.fst).Nodup := by
  rw [routeFields]
  cases d.responsibilityRoute <;> simp [baseFields]

/-- What is written repeats no key. -/
theorem toDict_uniqueKeys (ha : d.approvalAuthority.UniqueKeys) (hd : (Json.obj metadata).UniqueKeys) :
    (d.toDict metadata).UniqueKeys := by
  refine ⟨d.nodup_fields metadata, uniqueFields_iff.mpr fun f hf => ?_⟩
  rcases mem_fields hf with rfl | rfl | ⟨-, r, -, hr⟩ | ⟨-, hplain⟩
  · exact ha
  · exact hd
  · rw [hr]
    exact r.toDict_uniqueKeys
  · exact hplain.uniqueKeys

/-- The scalars that are written. -/
theorem toDict_leaves {P : Json → Prop} (hnull : P .null) (htext : ∀ s, P (.str s)) (ha : d.approvalAuthority.Leaves P)
    (hd : (Json.obj metadata).Leaves P) : (d.toDict metadata).Leaves P := by
  refine leavesFields_iff.mpr fun f hf => ⟨htext _, ?_⟩
  rcases mem_fields hf with rfl | rfl | ⟨-, r, -, hr⟩ | ⟨-, hplain⟩
  · exact ha
  · exact hd
  · rw [hr]
    exact leavesFields_iff.mpr fun f hf => ⟨htext _, (ResponsibilityRoute.plain_of_mem rfl hf).leaves hnull htext⟩
  · exact hplain.leaves hnull htext

/-- The other members are texts. -/
theorem plain_of_get? {key : PyText} (hkey : key ∉ openKeys) {v : Json} (h : (d.toDict metadata).get? key = some v) :
    v.Plain := by
  rcases mem_fields ((lookup_eq_some (d.nodup_fields metadata)).mp h) with heq | heq | ⟨heq, -⟩ | ⟨-, hplain⟩
  · exact absurd (by simp [openKeys, (Prod.mk.inj heq).1]) hkey
  · exact absurd (by simp [openKeys, (Prod.mk.inj heq).1]) hkey
  · exact absurd (by simp [openKeys, show key = _ from heq]) hkey
  · exact hplain

theorem get?_pathwayId (d : DecodedDefinition) (metadata : List (PyText × Json)) :
    (d.toDict metadata).get? "pathway_id" = some (.text d.pathwayId) := rfl

theorem get?_authority (d : DecodedDefinition) (metadata : List (PyText × Json)) :
    (d.toDict metadata).get? "approval_authority" = some d.approvalAuthority := rfl

theorem get?_metadata (d : DecodedDefinition) (metadata : List (PyText × Json)) :
    (d.toDict metadata).get? "metadata" = some (.obj metadata) := rfl

theorem get?_route (d : DecodedDefinition) (metadata : List (PyText × Json)) :
    (d.toDict metadata).get? "responsibility_route" = d.responsibilityRoute.map ResponsibilityRoute.toDict := by
  rw [toDict, routeFields]
  cases d.responsibilityRoute <;> rfl

/-- Another authority and other metadata, under their keys only. -/
theorem get?_withOpen (d : DecodedDefinition) (authority : Json) (metadata metadata' : List (PyText × Json))
    {key : PyText} (ha : key ≠ "approval_authority") (hm : key ≠ "metadata") :
    (({ d with approvalAuthority := authority } : DecodedDefinition).toDict metadata').get? key =
      (d.toDict metadata).get? key := by
  have ha' : (key == PyText.utf8 "approval_authority") = false := beq_eq_false_iff_ne.mpr ha
  have hm' : (key == PyText.utf8 "metadata") = false := beq_eq_false_iff_ne.mpr hm
  rw [toDict, toDict, routeFields, routeFields]
  cases d.responsibilityRoute <;> simp [baseFields, Json.get?, List.lookup_cons, ha', hm']

/-- Only the members count, and what the route is read as. -/
theorem fromDict_congr (py : Platform) {i j : Json}
    (h : ∀ key : PyText, key ≠ "responsibility_route" → i.get? key = j.get? key)
    (hroute : i.get? "responsibility_route" = j.get? "responsibility_route" ∨
      ∃ u v, i.get? "responsibility_route" = some (.obj u) ∧ j.get? "responsibility_route" = some (.obj v) ∧
        ResponsibilityRoute.fromDict py (.obj u) = ResponsibilityRoute.fromDict py (.obj v)) :
    fromDict py i = fromDict py j := by
  simp (disch := decide) only [fromDict, getItem, mapping, h]
  rcases hroute with hroute | ⟨u, v, hu, hv, hroute⟩
  · rw [hroute]
  · rw [hu, hv]
    simp only [hroute]

/-- **What is decoded is read back from its members in any order.** -/
theorem fromDict_resorted (py : Platform) {j : Json} (ha : d.approvalAuthority.UniqueKeys)
    (hd : (Json.obj metadata).UniqueKeys) (hj : j.UniqueKeys) (h : j.sortKeys = (d.toDict metadata).sortKeys) :
    ∃ authority metadata', authority.sortKeys = d.approvalAuthority.sortKeys ∧
      (Json.obj metadata').sortKeys = (Json.obj metadata).sortKeys ∧
      fromDict py j = .ok { d with approvalAuthority := authority, metadata := itemsOf metadata' } := by
  have hget := map_get?_of_sortKeys hj (toDict_uniqueKeys ha hd) h
  obtain ⟨authority, hauthority, hsorta⟩ := Option.map_eq_some_iff.mp (hget "approval_authority")
  obtain ⟨v, hv, hsort⟩ := Option.map_eq_some_iff.mp (hget "metadata")
  obtain ⟨metadata', rfl⟩ := exists_obj_of_sortKeys hsort
  refine ⟨authority, metadata', hsorta, hsort, ?_⟩
  refine Eq.trans ?_ (({ d with approvalAuthority := authority } : DecodedDefinition).fromDict_toDict py metadata')
  refine fromDict_congr py (fun key hkey => ?_) ?_
  · by_cases hauth : key = "approval_authority"
    · rw [hauth, hauthority, get?_authority]
    by_cases hmeta : key = "metadata"
    · rw [hmeta, hv, get?_metadata]
    rw [get?_withOpen d authority metadata metadata' hauth hmeta]
    exact get?_of_rigid (hget key) fun v hv => (plain_of_get? (by simp [openKeys, hauth, hmeta, hkey]) hv).rigid
  · have hr := hget "responsibility_route"
    rw [get?_route] at hr ⊢
    cases hdr : d.responsibilityRoute with
    | none =>
      rw [hdr] at hr
      exact .inl (Option.map_eq_none_iff.mp hr)
    | some r =>
      rw [hdr] at hr
      obtain ⟨u, hu, hsort⟩ := Option.map_eq_some_iff.mp hr
      obtain ⟨u, rfl⟩ := exists_obj_of_sortKeys hsort
      refine .inr ⟨u, _, hu, rfl, ?_⟩
      exact (ResponsibilityRoute.fromDict_resorted py (hj.get? hu) hsort).trans (r.fromDict_toDict py).symm

end DecodedDefinition

/-! ## Definitions -/

namespace PathwayDefinition

variable {d : PathwayDefinition}

/-- What is written repeats no key. -/
theorem toDict_uniqueKeys (hd : (Json.obj d.metadata).UniqueKeys) : d.toDict.UniqueKeys := by
  rw [← d.toDict_decoded]
  exact DecodedDefinition.toDict_uniqueKeys (Plain.optText d.approvalAuthority).uniqueKeys hd

/-- The scalars that are written. -/
theorem toDict_leaves {P : Json → Prop} (hnull : P .null) (htext : ∀ s, P (.str s))
    (hd : (Json.obj d.metadata).Leaves P) : d.toDict.Leaves P := by
  rw [← d.toDict_decoded]
  exact DecodedDefinition.toDict_leaves hnull htext ((Plain.optText d.approvalAuthority).leaves hnull htext) hd

theorem get?_pathwayId (d : PathwayDefinition) : d.toDict.get? "pathway_id" = some (.text d.pathwayId) := by
  rw [← d.toDict_decoded]
  rfl

/-- **A definition is read back from its members in any order.** -/
theorem fromDict_resorted (py : Platform) {j : Json} (hd : (Json.obj d.metadata).UniqueKeys) (hj : j.UniqueKeys)
    (h : j.sortKeys = d.toDict.sortKeys) : ∃ metadata, (Json.obj metadata).sortKeys = (Json.obj d.metadata).sortKeys ∧
      fromDict py j = .ok { d with metadata } := by
  rw [← d.toDict_decoded] at h
  obtain ⟨authority, metadata, hauthority, hmetadata, hread⟩ := DecodedDefinition.fromDict_resorted py
    (Plain.optText d.approvalAuthority).uniqueKeys hd hj h
  obtain rfl := (Plain.optText d.approvalAuthority).rigid authority hauthority
  refine ⟨metadata, hmetadata, ?_⟩
  rw [fromDict, hread]
  exact ({ d with metadata } : PathwayDefinition).typed_decoded

end PathwayDefinition

end Rpr
