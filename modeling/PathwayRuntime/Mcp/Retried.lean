import PathwayRuntime.Ledger.Fingerprint
import PathwayRuntime.Model.Admission

/-!
# Transport retries and the ledger

* `assertTransportRetry_ok`: what a retry that is accepted keeps.
* **`retried_fingerprint_iff`**: it has the fingerprint of the original exactly when the parameters of both are alike;
  `truth_accepted`: the integer `1` may come back as `True`.
-/

set_option autoImplicit false

namespace Rpr

variable {sameObject : PyValue → PyValue → Bool} {r r' : ExecutionRequest}

theorem assertTransportRetry_ok (h : assertTransportRetry sameObject r r' = .ok ()) :
    r.operationId = r'.operationId ∧ r.action = r'.action ∧
      (PyValue.dict r.parameters).same sameObject (.dict r'.parameters) = true := by
  unfold assertTransportRetry at h
  split_ifs at h with hidentity hrequest
  obtain ⟨haction, hparameters⟩ := not_or.mp hrequest
  exact ⟨not_not.mp (not_or.mp hidentity).1, not_not.mp haction, by simpa using hparameters⟩

/-- **A transport retry that is accepted has the fingerprint of the original** if and only if at corresponding
places the parameters have numbers of one type and sign. -/
theorem retried_fingerprint_iff {py : Platform} (hsha : Function.Injective py.sha256) {fp fp' : String}
    (hd : (PyValue.dict r.parameters).Everywhere PyValue.DistinctKeys)
    (hd' : (PyValue.dict r'.parameters).Everywhere PyValue.DistinctKeys) (h : fingerprint py r = .ok fp)
    (h' : fingerprint py r' = .ok fp') (hretry : assertTransportRetry sameObject r r' = .ok ()) :
    fp = fp' ↔ (PyValue.dict r.parameters).Alike (.dict r'.parameters) := by
  obtain ⟨hoperation, haction, hsame⟩ := assertTransportRetry_ok hretry
  obtain ⟨c, hc, -⟩ := fingerprint_eq_ok.mp h
  obtain ⟨c', hc', -⟩ := fingerprint_eq_ok.mp h'
  obtain ⟨j, hj, -, hu, -⟩ := canonicalIdentity_eq_ok hd hc
  obtain ⟨j', hj', -, hu', -⟩ := canonicalIdentity_eq_ok hd' hc'
  have halike := PyValue.sortKeys_eq_iff _ hj hj' hu.2.2.2.1 hu'.2.2.2.1 hsame
  rw [fingerprint_eq_iff hsha hd hd' h h', ← halike]
  constructor
  · rintro ⟨-, -, i, i', hi, hi', hsort⟩
    rw [ofJson_inj j (hj.symm.trans hi), ofJson_inj j' (hj'.symm.trans hi')]
    exact hsort
  · exact fun hsort => ⟨hoperation, haction, j, j', hj, hj', hsort⟩

/-! ## A number and a truth value -/

/-- Requests with the parameters `\x7b"x": 1\x7d` and `\x7b"x": True\x7d`. -/
def numberRequest : ExecutionRequest := { requestA with parameters := [(.str "x", .int 1)] }

def truthRequest : ExecutionRequest := { requestA with parameters := [(.str "x", .bool true)] }

/-- A request, and its retry with the members in another order. -/
def listRequest : ExecutionRequest := { requestA with
  parameters := [(.str "x", .int 1), (.str "y", .list [.bool true])] }

def reorderedRequest : ExecutionRequest := { requestA with
  parameters := [(.str "y", .list [.bool true]), (.str "x", .int 1)] }

def retriedPlatform : Platform := .withDigests [
  ("\x7b\"action\":\"write\",\"operation_id\":\"op\",\"parameters\":\x7b\"x\":1\x7d\x7d".toList,
    "bb39fab57b4edbc72d606c6aa3802be336bb7808131cacbc5ecbf0fa96084683"),
  ("\x7b\"action\":\"write\",\"operation_id\":\"op\",\"parameters\":\x7b\"x\":true\x7d\x7d".toList,
    "7cb2d0a67530500a3f01dfaea37b156c118485e9acb4e7b14ef5f7c73a992382"),
  ("\x7b\"action\":\"write\",\"operation_id\":\"op\",\"parameters\":\x7b\"x\":1,\"y\":[true]\x7d\x7d".toList,
    "4a9c85877213f010b6d34dad810c469ac38e15ade82659070f3a08b115e1f99d")]

theorem retried_fingerprint_reordered :
    assertTransportRetry (fun _ _ => false) listRequest reorderedRequest = .ok () ∧
      (PyValue.dict listRequest.parameters).Alike (.dict reorderedRequest.parameters) := by
  have hsha : Function.Injective retriedPlatform.sha256 := Platform.withDigests_injective (by simp) fun p hp => by
    simp only [List.mem_cons, List.not_mem_nil, or_false] at hp
    rcases hp with rfl | rfl | rfl <;> decide
  have h : fingerprint retriedPlatform listRequest =
      .ok "4a9c85877213f010b6d34dad810c469ac38e15ade82659070f3a08b115e1f99d" := by decide +kernel
  have h' : fingerprint retriedPlatform reorderedRequest =
      .ok "4a9c85877213f010b6d34dad810c469ac38e15ade82659070f3a08b115e1f99d" := by decide +kernel
  have hretry : assertTransportRetry (fun _ _ => false) listRequest reorderedRequest = .ok () := by decide
  have hd : (PyValue.dict listRequest.parameters).Everywhere PyValue.DistinctKeys :=
    ⟨by simp [PyValue.DistinctKeys, listRequest], trivial, ⟨trivial, trivial, trivial⟩, trivial⟩
  have hd' : (PyValue.dict reorderedRequest.parameters).Everywhere PyValue.DistinctKeys :=
    ⟨by simp [PyValue.DistinctKeys, reorderedRequest], ⟨trivial, trivial, trivial⟩, trivial, trivial⟩
  exact ⟨hretry, (retried_fingerprint_iff hsha hd hd' h h' hretry).mp rfl⟩

/-- **The integer `1` comes back as `True`**: the retry is accepted, and its fingerprint is another one. -/
theorem truth_accepted : assertTransportRetry (fun _ _ => false) numberRequest truthRequest = .ok () ∧
    fingerprint retriedPlatform numberRequest =
      .ok "bb39fab57b4edbc72d606c6aa3802be336bb7808131cacbc5ecbf0fa96084683" ∧
    fingerprint retriedPlatform truthRequest =
      .ok "7cb2d0a67530500a3f01dfaea37b156c118485e9acb4e7b14ef5f7c73a992382" := by
  decide +kernel

end Rpr
