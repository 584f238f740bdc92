import PathwayRuntime.Ledger.Identity
import PathwayRuntime.Model.System
import PathwayRuntime.Python.Canonical

/-!
# What a fingerprint identifies

* `PyValue.SameJson`: the same JSON value, with the members of objects in any order and tuples for lists.
* `strictJson_eq_ok_listed`: a value that is accepted is JSON, with lists for its tuples.
* **`fingerprint_eq_iff`**: equal fingerprints are fingerprints of the same operation, action and
  parameters.
-/

set_option autoImplicit false

namespace Rpr

namespace PyValue

/-- A dict has one value under each key. -/
def DistinctKeys : PyValue → Prop
  | .dict fields => (fields.map Prod.fst).Nodup
  | _ => True

/-- The same JSON value: the members of objects in any order, and tuples for lists, at every depth. -/
def SameJson (v w : PyValue) : Prop :=
  ∃ j j', v.listed = .ofJson j ∧ w.listed = .ofJson j' ∧ j.sortKeys = j'.sortKeys

end PyValue

/-! ## Accepted values are JSON -/

mutual
/-- Tuples are copied like lists. -/
theorem strictJson_listed (v : PyValue) (path : String) (depth : ℕ) (b : FingerprintBudget) :
    strictJson path depth v.listed b = strictJson path depth v b := by
  match v with
  | .none | .bool _ | .int _ | .float _ | .str _ | .object _ _ => rfl
  | .list items | .tuple items =>
    simp only [PyValue.listed, strictJson, strictItems_listed items]
  | .dict fields => simp only [PyValue.listed, strictJson, strictFields_listed fields]

theorem strictItems_listed (items : List PyValue) (path : String) (depth i : ℕ) (b : FingerprintBudget) :
    strictItems path depth i (PyValue.listedItems items) b = strictItems path depth i items b := by
  match items with
  | [] => rfl
  | item :: items =>
    simp only [PyValue.listedItems, strictItems, strictJson_listed item, strictItems_listed items]

theorem strictFields_listed (fields : PyDict) (path : String) (depth : ℕ) (result : List (PyText × Json))
    (b : FingerprintBudget) : strictFields path depth (PyValue.listedFields fields) result b =
      strictFields path depth fields result b := by
  match fields with
  | [] => rfl
  | (.other _, _) :: _ => simp only [PyValue.listedFields, strictFields]
  | (.str key, item) :: fields =>
    simp only [PyValue.listedFields, strictFields, strictJson_listed item, strictFields_listed fields]
end

mutual
/-- A value that is accepted is JSON, with lists for its tuples. -/
theorem exists_ofJson (v : PyValue) {path : String} {depth : ℕ} {b b' : FingerprintBudget} {j : Json}
    (hd : v.Everywhere PyValue.DistinctKeys) (h : strictJson path depth v b = .ok (j, b')) :
    ∃ i, v.listed = .ofJson i ∧ i.UniqueKeys := by
  match v with
  | .none => exact ⟨.null, rfl, trivial⟩
  | .bool x => exact ⟨.bool x, rfl, trivial⟩
  | .int i => exact ⟨.int i, rfl, trivial⟩
  | .float x => exact ⟨.float x, rfl, trivial⟩
  | .str s => exact ⟨.str s, rfl, trivial⟩
  | .list items =>
    rw [strictJson] at h
    obtain ⟨_, -, h⟩ := except_bind_eq_ok.mp h
    obtain ⟨_, -, h⟩ := except_bind_eq_ok.mp h
    obtain ⟨⟨js, b₂⟩, hitems, -⟩ := except_bind_eq_ok.mp h
    obtain ⟨is, his, hu⟩ := exists_ofJsonItems items hd.2 hitems
    exact ⟨.arr is, congrArg PyValue.list his, hu⟩
  | .tuple items =>
    rw [strictJson] at h
    obtain ⟨_, -, h⟩ := except_bind_eq_ok.mp h
    obtain ⟨_, -, h⟩ := except_bind_eq_ok.mp h
    obtain ⟨⟨js, b₂⟩, hitems, -⟩ := except_bind_eq_ok.mp h
    obtain ⟨is, his, hu⟩ := exists_ofJsonItems items hd.2 hitems
    exact ⟨.arr is, congrArg PyValue.list his, hu⟩
  | .dict fields =>
    rw [strictJson] at h
    obtain ⟨_, -, h⟩ := except_bind_eq_ok.mp h
    obtain ⟨_, -, h⟩ := except_bind_eq_ok.mp h
    obtain ⟨⟨out, b₂⟩, hfields, -⟩ := except_bind_eq_ok.mp h
    obtain ⟨pairs, hpairs, hu⟩ := exists_ofJsonFields fields hd.2 hfields
    have hnd : (fields.map Prod.fst).Nodup := hd.1
    rw [← keys_listedFields, hpairs, keys_ofJsonFields] at hnd
    exact ⟨.obj pairs, congrArg PyValue.dict hpairs, hnd.of_map PyKey.str, hu⟩
  | .object typeName form =>
    rw [strictJson] at h
    obtain ⟨_, -, h⟩ := except_bind_eq_ok.mp h
    cases h

theorem exists_ofJsonItems (items : List PyValue) {path : String} {depth i : ℕ} {b b' : FingerprintBudget}
    {js : List Json} (hd : PyValue.EverywhereItems PyValue.DistinctKeys items)
    (h : strictItems path depth i items b = .ok (js, b')) :
    ∃ is, PyValue.listedItems items = PyValue.ofJsonItems is ∧ Json.UniqueItems is := by
  match items with
  | [] => exact ⟨[], rfl, trivial⟩
  | item :: items =>
    rw [strictItems] at h
    obtain ⟨⟨j, b₁⟩, hitem, h⟩ := except_bind_eq_ok.mp h
    obtain ⟨⟨js, b₂⟩, hitems, -⟩ := except_bind_eq_ok.mp h
    obtain ⟨i, hi, hu⟩ := exists_ofJson item hd.1 hitem
    obtain ⟨is, his, hus⟩ := exists_ofJsonItems items hd.2 hitems
    exact ⟨i :: is, by rw [PyValue.listedItems, PyValue.ofJsonItems, hi, his], hu, hus⟩

theorem exists_ofJsonFields (fields : PyDict) {path : String} {depth : ℕ} {b b' : FingerprintBudget}
    {result out : List (PyText × Json)} (hd : PyValue.EverywhereFields PyValue.DistinctKeys fields)
    (h : strictFields path depth fields result b = .ok (out, b')) :
    ∃ pairs, PyValue.listedFields fields = PyValue.ofJsonFields pairs ∧ Json.UniqueFields pairs := by
  match fields with
  | [] => exact ⟨[], rfl, trivial⟩
  | (.other form, item) :: fields => cases h
  | (.str key, item) :: fields =>
    rw [strictFields] at h
    obtain ⟨_, -, h⟩ := except_bind_eq_ok.mp h
    obtain ⟨⟨j, b₁⟩, hitem, h⟩ := except_bind_eq_ok.mp h
    obtain ⟨i, hi, hu⟩ := exists_ofJson item hd.1 hitem
    obtain ⟨pairs, hpairs, hus⟩ := exists_ofJsonFields fields hd.2 h
    exact ⟨(key, i) :: pairs, by rw [PyValue.listedFields, PyValue.ofJsonFields, hi, hpairs], hu, hus⟩
end

/-- **A value that is accepted is JSON with lists for its tuples**, and its copy is that JSON. -/
theorem strictJson_eq_ok_listed {v : PyValue} {path : String} {j : Json} {b' : FingerprintBudget}
    (hd : v.Everywhere PyValue.DistinctKeys) (h : strictJson path 0 v ⟨0, 0⟩ = .ok (j, b')) :
    v.listed = .ofJson j ∧ j.UniqueKeys ∧ j.Leaves Json.IsFinite ∧ (PyValue.ofJson j).depth ≤ maxNesting := by
  have hb : (⟨0, 0⟩ : FingerprintBudget).Allows 0 0 0 := ⟨by decide, by decide, by decide⟩
  obtain ⟨i, hi, hu⟩ := exists_ofJson v hd h
  rw [← strictJson_listed, hi] at h
  obtain ⟨⟨-, hfinite⟩, ⟨hdepth, -, -⟩, rfl, -⟩ := (strictJson_ofJson hu hb).mp h
  rw [Nat.zero_add] at hdepth
  exact ⟨hi, hu, hfinite, hdepth⟩

/-! ## Requests -/

/-- The JSON a request is identified by. -/
def requestJson (operationId action : String) (parameters : Json) : Json :=
  .obj [("operation_id", .text operationId), ("action", .text action), ("parameters", parameters)]

theorem sortKeys_requestJson (operationId action : String) (parameters : Json) :
    (requestJson operationId action parameters).sortKeys =
      .obj [("action", .text action), ("operation_id", .text operationId), ("parameters", parameters.sortKeys)] := by
  have h₁ : (PyText.utf8 "operation_id").le "action" = false := by decide
  have h₂ : (PyText.utf8 "operation_id").le "parameters" = true := by decide
  have h₃ : (PyText.utf8 "action").le "parameters" = true := by decide
  simp [requestJson, Json.sortKeys, Json.sortFields, Json.text, h₁, h₂, h₃]

/-- The JSON of a request that is accepted, and its canonical text. -/
theorem canonicalIdentity_eq_ok {r : ExecutionRequest} {c : List Char}
    (hd : (PyValue.dict r.parameters).Everywhere PyValue.DistinctKeys) (h : r.canonicalIdentity = .ok c) :
    ∃ j, (PyValue.dict r.parameters).listed = .ofJson j ∧
      Json.canonical (requestJson r.operationId r.action j) = some c ∧
      (requestJson r.operationId r.action j).UniqueKeys ∧
      (requestJson r.operationId r.action j).Leaves Json.IsFinite := by
  obtain ⟨⟨identity, b⟩, hstrict, h⟩ := except_bind_eq_ok.mp h
  have hdistinct : (PyValue.ofFields [("operation_id", .text r.operationId), ("action", .text r.action),
      ("parameters", .dict r.parameters)]).Everywhere PyValue.DistinctKeys :=
    ⟨by simp [PyValue.DistinctKeys], trivial, trivial, hd, trivial⟩
  obtain ⟨hlisted, hu, hfinite, -⟩ := strictJson_eq_ok_listed hdistinct hstrict
  have hcanonical : Json.canonical identity = some c := by
    dsimp only at h
    split at h
    · cases h
    · rename_i canonical hcanonical
      split_ifs at h
      rw [hcanonical, Except.ok.inj h]
  -- The last member of the identity is the JSON of the parameters.
  obtain ⟨j, hj⟩ : ∃ j, (PyValue.dict r.parameters).listed = .ofJson j := by
    cases identity with
    | obj fields =>
      have hfields := PyValue.dict.inj hlisted
      rw [ofJsonFields_eq_map] at hfields
      obtain ⟨f₁, fields, rfl, -, hfields⟩ := List.map_eq_cons_iff.mp hfields.symm
      obtain ⟨f₂, fields, rfl, -, hfields⟩ := List.map_eq_cons_iff.mp hfields
      obtain ⟨f₃, fields, rfl, hf₃, -⟩ := List.map_eq_cons_iff.mp hfields
      exact ⟨f₃.2, (congrArg Prod.snd hf₃).symm⟩
    | _ => cases hlisted
  obtain rfl : identity = requestJson r.operationId r.action j := by
    refine ofJson_inj identity (hlisted.symm.trans ?_)
    simp only [PyValue.listed] at hj
    simp only [requestJson, PyValue.ofFields, PyValue.listed, PyValue.listedFields, PyValue.ofJson,
      PyValue.ofJsonFields, PyValue.text, Json.text, List.map_cons, List.map_nil, hj]
  exact ⟨j, hj, hcanonical, hu, hfinite⟩

theorem fingerprint_eq_ok {py : Platform} {r : ExecutionRequest} {fp : String} :
    fingerprint py r = .ok fp ↔ ∃ c, r.canonicalIdentity = .ok c ∧ py.sha256 c = fp := by
  rw [fingerprint]
  cases r.canonicalIdentity with
  | error e => simp [Except.map]
  | ok c => simp [Except.map]

/-- **Equal fingerprints are fingerprints of the same operation, action and parameters.** -/
theorem fingerprint_eq_iff {py : Platform} (hsha : Function.Injective py.sha256) {r r' : ExecutionRequest}
    {fp fp' : String} (hd : (PyValue.dict r.parameters).Everywhere PyValue.DistinctKeys)
    (hd' : (PyValue.dict r'.parameters).Everywhere PyValue.DistinctKeys) (h : fingerprint py r = .ok fp)
    (h' : fingerprint py r' = .ok fp') : fp = fp' ↔ r.operationId = r'.operationId ∧ r.action = r'.action ∧
      (PyValue.dict r.parameters).SameJson (.dict r'.parameters) := by
  obtain ⟨c, hc, rfl⟩ := fingerprint_eq_ok.mp h
  obtain ⟨c', hc', rfl⟩ := fingerprint_eq_ok.mp h'
  obtain ⟨j, hj, hcanonical, hu, hfinite⟩ := canonicalIdentity_eq_ok hd hc
  obtain ⟨j', hj', hcanonical', hu', hfinite'⟩ := canonicalIdentity_eq_ok hd' hc'
  rw [hsha.eq_iff]
  constructor
  · rintro rfl
    have hsort := Json.canonical_inj hcanonical hcanonical' hu hu'
    rw [sortKeys_requestJson, sortKeys_requestJson] at hsort
    simp only [Json.obj.injEq, List.cons.injEq, Prod.mk.injEq, true_and, and_true, Json.text, Json.str.injEq,
      PyText.utf8.injEq] at hsort
    exact ⟨hsort.2.1, hsort.1, j, j', hj, hj', hsort.2.2⟩
  · rintro ⟨hoperation, haction, i, i', hi, hi', hsort⟩
    obtain rfl := ofJson_inj j (hj.symm.trans hi)
    obtain rfl := ofJson_inj j' (hj'.symm.trans hi')
    have hc := Json.canonical_sortKeys hu hcanonical
    have hc' := Json.canonical_sortKeys hu' hcanonical'
    rw [sortKeys_requestJson, hoperation, haction, hsort, ← sortKeys_requestJson, hc'] at hc
    exact (Option.some.inj hc).symm

/-! ## A tuple and a list -/

/-- The float `1.0`. -/
def oneFloat : PyFloat := .finite ⟨false, 1, 0, .inl (by decide)⟩

/-- Two attempts with the same parameters, in another order and with a list for the tuple. -/
def tupledRequest : ExecutionRequest := { requestA with
  parameters := [(.str "a", .tuple [.int 1]), (.str "b", .float oneFloat)] }

def listedRequest : ExecutionRequest := { requestB with
  parameters := [(.str "b", .float oneFloat), (.str "a", .list [.int 1])] }

/-- The identity of both requests, and its SHA-256 digest. -/
def sampleIdentity : List Char :=
  "\x7b\"action\":\"write\",\"operation_id\":\"op\",\"parameters\":\x7b\"a\":[1],\"b\":1.0\x7d\x7d".toList

def sampleDigest : String := "91a671c473de7db2b1364e61d3232992ed3f0f8796cd0cb1b1a1f955fa084862"

/-- A platform with these digests, and another digest for every other text. -/
def Platform.withDigests (digests : List (List Char × String)) : Platform := { Platform.sample with
  sha256 := fun text => (digests.lookup text).getD (String.ofList ('_' :: text)) }

theorem Platform.withDigests_injective {digests : List (List Char × String)} (hnd : (digests.map Prod.snd).Nodup)
    (hhex : ∀ p ∈ digests, p.2.toList.head? ≠ some '_') :
    Function.Injective (Platform.withDigests digests).sha256 := by
  have hcases : ∀ text, (text, (withDigests digests).sha256 text) ∈ digests ∨
      (withDigests digests).sha256 text = String.ofList ('_' :: text) := by
    intro text
    simp only [withDigests]
    cases h : digests.lookup text with
    | none => exact .inr rfl
    | some digest =>
      obtain ⟨l, l', hl, -⟩ := List.lookup_eq_some_iff.mp h
      exact .inl (by simp [hl])
  have hother : ∀ text {s : List Char}, (text, String.ofList ('_' :: s)) ∉ digests := by
    intro text s h
    exact hhex _ h (by rw [String.toList_ofList, List.head?_cons])
  intro s t h
  rcases hcases s with hs | hs <;> rcases hcases t with ht | ht
  · exact congrArg Prod.fst (List.inj_on_of_nodup_map hnd hs ht h)
  · exact absurd (ht ▸ h ▸ hs) (hother s)
  · exact absurd (hs ▸ h ▸ ht) (hother t)
  · exact (List.cons.inj (String.ofList_injective (hs.symm.trans (h.trans ht)))).2

/-- A platform with the digest of that identity, and another digest for every other text. -/
def Platform.injective : Platform := { Platform.sample with
  sha256 := fun text => if text = sampleIdentity then sampleDigest else String.ofList ('_' :: text) }

theorem Platform.injective_sha256 : Function.Injective Platform.injective.sha256 := by
  have hsha : Platform.injective.sha256 = (Platform.withDigests [(sampleIdentity, sampleDigest)]).sha256 := by
    funext text
    simp only [Platform.injective, Platform.withDigests, List.lookup_cons, List.lookup_nil]
    by_cases h : text = sampleIdentity
    · simp [h]
    · simp [h, beq_eq_false_iff_ne.mpr h]
  rw [hsha]
  exact withDigests_injective (by simp) fun p hp => by
    rw [List.mem_singleton.mp hp]
    decide

theorem tupled_same_listed : fingerprint .injective tupledRequest = .ok sampleDigest ∧
    fingerprint .injective listedRequest = .ok sampleDigest ∧
      (PyValue.dict tupledRequest.parameters).SameJson (.dict listedRequest.parameters) := by
  have h : fingerprint .injective tupledRequest = .ok sampleDigest := by decide +kernel
  have h' : fingerprint .injective listedRequest = .ok sampleDigest := by decide +kernel
  have hd : (PyValue.dict tupledRequest.parameters).Everywhere PyValue.DistinctKeys :=
    ⟨by simp [PyValue.DistinctKeys, tupledRequest], ⟨trivial, trivial, trivial⟩, trivial, trivial⟩
  have hd' : (PyValue.dict listedRequest.parameters).Everywhere PyValue.DistinctKeys :=
    ⟨by simp [PyValue.DistinctKeys, listedRequest], trivial, ⟨trivial, trivial, trivial⟩, trivial⟩
  exact ⟨h, h', ((fingerprint_eq_iff Platform.injective_sha256 hd hd' h h').mp rfl).2.2⟩

end Rpr
