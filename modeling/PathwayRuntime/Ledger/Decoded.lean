import PathwayRuntime.Ledger.Fingerprint
import PathwayRuntime.Python.Loaded

/-!
# Reading a stored result back

* `ExecutionResult.Same`: the same result up to JSON normal form: lists for tuples, members in any order.
* `resultFromAttempt_same`: the stored value decodes to the result, also with its members sorted.
* **`loads_persisted`**: so does the text the ledger stores.
-/

set_option autoImplicit false

namespace Rpr

/-! ## Results up to JSON normal form -/

/-- The same verdict and reason, and the same JSON observed. -/
structure ReadbackEvidence.Same (rb rb' : ReadbackEvidence) : Prop where
  verified : rb'.verified = rb.verified
  observed : (PyValue.dict rb.observed).SameJson (.dict rb'.observed)
  reason : rb'.reason = rb.reason

/-- The same result, up to tuples for lists and the order of members in its evidence and readback. -/
structure ExecutionResult.Same (r r' : ExecutionResult) : Prop where
  status : r'.status = r.status
  evidence : (PyValue.dict r.evidence).SameJson (.dict r'.evidence)
  readback : Option.Rel ReadbackEvidence.Same r.readback r'.readback
  reason : r'.reason = r.reason

theorem listedFields_eq_map (fields : PyDict) :
    PyValue.listedFields fields = fields.map fun f => (f.1, f.2.listed) := by
  induction fields with
  | nil => rfl
  | cons f fields ih => rw [PyValue.listedFields, List.map_cons, ih]

/-! ## Members of a stored value -/

namespace Json

/-- The value, or the value with its members sorted. -/
def Resorted (j i : Json) : Prop := i = j ∨ i = j.sortKeys

theorem Resorted.sortKeys_eq {j i : Json} (h : Resorted j i) : i.sortKeys = j.sortKeys := by
  rcases h with rfl | rfl
  · rfl
  · exact sortKeys_sortKeys j

/-- Members are kept, each perhaps sorted. -/
theorem Resorted.get? {j i v : Json} (h : Resorted j i) (hu : j.UniqueKeys) {key : PyText}
    (hv : j.get? key = some v) : ∃ u, i.get? key = some u ∧ Resorted v u := by
  rcases h with rfl | rfl
  · exact ⟨v, hv, .inl rfl⟩
  · exact ⟨v.sortKeys, by rw [get?_sortKeys hu, hv]; rfl, .inr rfl⟩

theorem Resorted.null {i : Json} (h : Resorted .null i) : i = .null := h.elim id id

theorem Resorted.bool {b : Bool} {i : Json} (h : Resorted (.bool b) i) : i = .bool b := h.elim id id

theorem Resorted.str {s : PyText} {i : Json} (h : Resorted (.str s) i) : i = .str s := h.elim id id

theorem Resorted.obj {fields : List (PyText × Json)} {i : Json} (h : Resorted (.obj fields) i) :
    ∃ fields', i = .obj fields' :=
  h.elim (fun h => ⟨_, h⟩) fun h => ⟨_, h⟩

end Json

/-- The decoded member of a dict that was stored. -/
theorem exists_member (key : String) (v : PyValue) {fs : List (String × PyValue)} {j : Json}
    (h : (PyValue.ofFields fs).listed = .ofJson j) (hu : j.UniqueKeys) (hmem : (key, v) ∈ fs) :
    ∃ i, j.get? key = some i ∧ i.UniqueKeys ∧ PyValue.ofJson i = v.listed := by
  cases j with
  | obj fields =>
    have hfields := PyValue.dict.inj h
    rw [listedFields_eq_map, ofJsonFields_eq_map, List.map_map] at hfields
    have hin : (PyKey.str (.utf8 key), v.listed) ∈
        fields.map fun f => (PyKey.str f.1, PyValue.ofJson f.2) := by
      rw [← hfields]
      exact List.mem_map.mpr ⟨(key, v), hmem, rfl⟩
    obtain ⟨⟨k, i⟩, hf, heq⟩ := List.mem_map.mp hin
    obtain ⟨hk, hi⟩ := Prod.mk.inj heq
    obtain rfl := PyKey.str.inj hk
    have hget : (Json.obj fields).get? key = some i := (Json.lookup_eq_some hu.1).mpr hf
    exact ⟨i, hget, hu.get? hget, hi⟩
  | _ => cases h

/-! ## Decoding the stored value -/

section Decode

variable {r : ExecutionResult} {rb : ReadbackEvidence} {j i : Json}

/-- A member that is a dict is decoded to the same dict. -/
theorem dictOf_same {d : PyDict} (h : PyValue.ofJson j = (PyValue.dict d).listed) (hi : Json.Resorted j i) :
    ∃ d', dictOf (some i) = .ok d' ∧ (PyValue.dict d).SameJson (.dict d') := by
  cases j with
  | obj fields =>
    obtain ⟨fields', rfl⟩ := hi.obj
    exact ⟨PyValue.ofJsonFields fields', rfl, .obj fields, .obj fields', h.symm,
      listed_ofJson (.obj fields'), hi.sortKeys_eq.symm⟩
  | _ => cases h

theorem reasonOf_same {s : Option PyText} (h : PyValue.ofJson j = (PyValue.optText s).listed)
    (hi : Json.Resorted j i) : reasonOf (some i) = s := by
  cases s with
  | none =>
    obtain rfl : j = .null := ofJson_inj j h
    rw [hi.null]
    rfl
  | some s =>
    obtain rfl : j = .str s := ofJson_inj j h
    rw [hi.str]
    rfl

/-- A stored readback is decoded to the same readback. -/
theorem readback_same (hu : j.UniqueKeys)
    (h : PyValue.ofJson j = (readbackValue (some rb)).listed) (hi : Json.Resorted j i) :
    (∃ fields, i = .obj fields) ∧ (i.get? "verified").map Json.truthy = some rb.verified ∧
      (∃ d, dictOf (i.get? "observed") = .ok d ∧ (PyValue.dict rb.observed).SameJson (.dict d)) ∧
      reasonOf (i.get? "reason") = rb.reason := by
  obtain ⟨jv, hv, -, hjv⟩ := exists_member "verified" (.bool rb.verified) h.symm hu (by simp)
  obtain ⟨jo, ho, -, hjo⟩ := exists_member "observed" (.dict rb.observed) h.symm hu (by simp)
  obtain ⟨jr, hr, -, hjr⟩ := exists_member "reason" (.optText rb.reason) h.symm hu (by simp)
  obtain ⟨iv, hiv, hsv⟩ := hi.get? hu hv
  obtain ⟨io, hio, hso⟩ := hi.get? hu ho
  obtain ⟨ir, hir, hsr⟩ := hi.get? hu hr
  refine ⟨?_, ?_, ?_, ?_⟩
  · obtain ⟨fields, rfl⟩ : ∃ fields, j = .obj fields := by
      cases j with
      | obj fields => exact ⟨fields, rfl⟩
      | _ => cases hv
    exact hi.obj
  · obtain rfl : jv = .bool rb.verified := ofJson_inj jv hjv
    rw [hiv, hsv.bool]
    rfl
  · rw [hio]
    exact dictOf_same hjo hso
  · rw [hir]
    exact reasonOf_same hjr hsr

/-- **A value that was stored decodes to the result it was stored for**, also with its members sorted. -/
theorem resultFromAttempt_same (hu : j.UniqueKeys) (h : r.storedValue.listed = .ofJson j)
    (hi : Json.Resorted j i) : ∃ r', resultFromAttempt i = .ok r' ∧ r.Same r' := by
  obtain ⟨js, hs, -, hjs⟩ := exists_member "status" (.text r.status.value) h hu (by simp)
  obtain ⟨je, he, -, hje⟩ := exists_member "evidence" (.dict r.evidence) h hu (by simp)
  obtain ⟨jb, hb, hub, hjb⟩ := exists_member "readback" (readbackValue r.readback) h hu (by simp)
  obtain ⟨jr, hr, -, hjr⟩ := exists_member "reason" (.optText r.reason) h hu (by simp)
  obtain ⟨is, his, hss⟩ := hi.get? hu hs
  obtain ⟨ie, hie, hse⟩ := hi.get? hu he
  obtain ⟨ib, hib, hsb⟩ := hi.get? hu hb
  obtain ⟨ir, hir, hsr⟩ := hi.get? hu hr
  have hstatus : i.getItem "status" = .ok (.text r.status.value) := by
    obtain rfl : js = .text r.status.value := ofJson_inj js hjs
    rw [Json.getItem, his, hss.str]
    rfl
  obtain ⟨d, hd, hevidence⟩ := dictOf_same hje hse
  have hreadback : ∃ rb', readbackOf i = .ok rb' ∧ Option.Rel ReadbackEvidence.Same r.readback rb' := by
    cases hrb : r.readback with
    | none =>
      rw [hrb] at hjb
      obtain rfl : jb = .null := ofJson_inj jb hjb
      exact ⟨none, by rw [readbackOf, hib, hsb.null], .none⟩
    | some rb =>
      rw [hrb] at hjb
      obtain ⟨⟨fields, rfl⟩, hverified, ⟨d', hd', hobserved⟩, hreason⟩ := readback_same hub hjb hsb
      refine ⟨some ⟨rb.verified, d', rb.reason⟩, ?_, .some ⟨rfl, hobserved, rfl⟩⟩
      rw [readbackOf, hib]
      simp only [hd', hverified, hreason, bind, Except.bind, Option.getD_some]
  obtain ⟨rb', hrb', hsame⟩ := hreadback
  refine ⟨⟨r.status, d, rb', r.reason⟩, ?_, ⟨rfl, hevidence, hsame, rfl⟩⟩
  rw [resultFromAttempt, hrb', hstatus, hie, hd, hir, reasonOf_same hjr hsr]
  simp only [ExecutionStatus.ofJson_value, bind, Except.bind]

theorem dictOf_self {x : Option Json} {d : PyDict} (h : dictOf x = .ok d) :
    (PyValue.dict d).SameJson (.dict d) := by
  have hfields : ∃ fields, d = PyValue.ofJsonFields fields := by
    unfold dictOf at h
    split at h
    · exact ⟨[], (Except.ok.inj h).symm⟩
    · exact ⟨_, (Except.ok.inj h).symm⟩
    · cases h
  obtain ⟨fields, rfl⟩ := hfields
  exact ⟨.obj fields, .obj fields, listed_ofJson (.obj fields), listed_ofJson (.obj fields), rfl⟩

/-- A decoded result is in normal form. -/
theorem resultFromAttempt_self (h : resultFromAttempt j = .ok r) : r.Same r := by
  obtain ⟨rb', hrb, h⟩ := except_bind_eq_ok.mp h
  obtain ⟨item, -, h⟩ := except_bind_eq_ok.mp h
  obtain ⟨status, -, h⟩ := except_bind_eq_ok.mp h
  obtain ⟨d, hd, h⟩ := except_bind_eq_ok.mp h
  obtain rfl := Except.ok.inj h
  refine ⟨rfl, dictOf_self hd, ?_, rfl⟩
  unfold readbackOf at hrb
  split at hrb
  · obtain rfl := Except.ok.inj hrb
    exact .none
  · obtain rfl := Except.ok.inj hrb
    exact .none
  · obtain ⟨observed, hobserved, hrb⟩ := except_bind_eq_ok.mp hrb
    obtain rfl := Except.ok.inj hrb
    exact .some ⟨rfl, dictOf_self hobserved, rfl⟩

end Decode

/-! ## The stored text -/

mutual
theorem PyValue.Everywhere.imp {P P' : PyValue → Prop} (hP : ∀ v, P v → P' v) (v : PyValue)
    (h : v.Everywhere P) : v.Everywhere P' := by
  match v with
  | .none | .bool _ | .int _ | .float _ | .str _ | .object _ _ => exact hP _ h
  | .list items | .tuple items => exact ⟨hP _ h.1, everywhereItems_imp hP items h.2⟩
  | .dict fields => exact ⟨hP _ h.1, everywhereFields_imp hP fields h.2⟩

theorem everywhereItems_imp {P P' : PyValue → Prop} (hP : ∀ v, P v → P' v) (items : List PyValue)
    (h : PyValue.EverywhereItems P items) : PyValue.EverywhereItems P' items := by
  match items with
  | [] => trivial
  | item :: items => exact ⟨PyValue.Everywhere.imp hP item h.1, everywhereItems_imp hP items h.2⟩

theorem everywhereFields_imp {P P' : PyValue → Prop} (hP : ∀ v, P v → P' v) (fields : PyDict)
    (h : PyValue.EverywhereFields P fields) : PyValue.EverywhereFields P' fields := by
  match fields with
  | [] => trivial
  | (_, v) :: fields => exact ⟨PyValue.Everywhere.imp hP v h.1, everywhereFields_imp hP fields h.2⟩
end

section Text

variable {jp : JsonPlatform}

theorem PyValue.Proper.distinctKeys (v : PyValue) (h : v.Proper jp) : v.DistinctKeys := by
  cases v with
  | dict fields => exact h
  | _ => trivial

mutual
/-- The floats of a stored value are the ones their digits are read as. -/
theorem isRead_of_proper (v : PyValue) {j : Json} (h : v.listed = .ofJson j)
    (hv : v.Everywhere (PyValue.Proper jp)) (hf : j.Leaves Json.IsFinite) : j.Leaves (Json.IsRead jp) := by
  match v, j with
  | .float (.finite x), .float y =>
    obtain rfl := PyValue.float.inj h
    exact hv
  | .list items, .arr js | .tuple items, .arr js =>
    exact isReadItems_of_proper items (PyValue.list.inj h) hv.2 hf
  | .dict fields, .obj pairs => exact isReadFields_of_proper fields (PyValue.dict.inj h) hv.2 hf
  | _, .null | _, .bool _ | _, .int _ | _, .str _ => trivial
  | .float (.inf _), .float y | .float .nan, .float y =>
    obtain rfl := PyValue.float.inj h
    exact absurd hf (by simp [Json.Leaves, Json.IsFinite, PyFloat.isFinite])

theorem isReadItems_of_proper (items : List PyValue) {js : List Json}
    (h : PyValue.listedItems items = PyValue.ofJsonItems js)
    (hv : PyValue.EverywhereItems (PyValue.Proper jp) items) (hf : Json.LeavesItems Json.IsFinite js) :
    Json.LeavesItems (Json.IsRead jp) js := by
  match items, js with
  | [], [] => trivial
  | item :: items, j :: js =>
    obtain ⟨hitem, hitems⟩ := List.cons.inj h
    exact ⟨isRead_of_proper item hitem hv.1 hf.1, isReadItems_of_proper items hitems hv.2 hf.2⟩

theorem isReadFields_of_proper (fields : PyDict) {pairs : List (PyText × Json)}
    (h : PyValue.listedFields fields = PyValue.ofJsonFields pairs)
    (hv : PyValue.EverywhereFields (PyValue.Proper jp) fields)
    (hf : Json.LeavesFields Json.IsFinite pairs) : Json.LeavesFields (Json.IsRead jp) pairs := by
  match fields, pairs with
  | [], [] => trivial
  | (_, v) :: fields, (_, j) :: pairs =>
    obtain ⟨hfield, hfields⟩ := List.cons.inj h
    exact ⟨trivial, isRead_of_proper v (Prod.mk.inj hfield).2 hv.1 hf.2.1,
      isReadFields_of_proper fields hfields hv.2 hf.2.2⟩
end

/-- The value of an accepted result is JSON with lists for tuples, and has a canonical text. -/
theorem persistResult_listed {r : ExecutionResult} {res : PersistedResult}
    (hd : r.storedValue.Everywhere PyValue.DistinctKeys) (h : persistResult r = .ok res) :
    r.storedValue.listed = .ofJson res.json ∧ res.json.UniqueKeys ∧ res.json.Leaves Json.IsFinite ∧
      (PyValue.ofJson res.json).depth ≤ maxNesting ∧ ∃ text, Json.canonical res.json = some text := by
  unfold persistResult at h
  split at h
  · cases h
  · rename_i j hj
    obtain rfl := Except.ok.inj h
    unfold strictResultJson at hj
    split at hj
    · cases hj
    · rename_i detached b hstrict
      split at hj
      · cases hj
      · rename_i text htext
        split_ifs at hj
        obtain rfl := Except.ok.inj hj
        obtain ⟨hlisted, hu, hfinite, hdepth⟩ := strictJson_eq_ok_listed hd hstrict
        exact ⟨hlisted, hu, hfinite, hdepth, text, htext⟩

/-- **The text the ledger stores is read back as the result it was stored for.** -/
theorem loads_persisted (hframes : maxNesting ≤ jp.scannerFrames) {r : ExecutionResult} {res : PersistedResult}
    (hr : r.storedValue.Everywhere (PyValue.Proper jp)) (h : persistResult r = .ok res) :
    ∃ text value r', Json.canonical res.json = some text ∧ loads jp defaultHooks text = .ok value ∧
      resultFromAttempt value = .ok r' ∧ r.Same r' := by
  obtain ⟨hlisted, hu, hfinite, hdepth, text, htext⟩ :=
    persistResult_listed (PyValue.Everywhere.imp PyValue.Proper.distinctKeys _ hr) h
  have hloads := Json.loads_canonical defaultHooks_keepsObjects htext hu
    (Json.leaves_imp Json.IsRead.readsFloats _ (isRead_of_proper _ hlisted hr hfinite)) (hdepth.trans hframes)
  obtain ⟨r', hr', hsame⟩ := resultFromAttempt_same hu hlisted (.inr rfl)
  exact ⟨text, _, r', htext, hloads, hr', hsame⟩

end Text

end Rpr
