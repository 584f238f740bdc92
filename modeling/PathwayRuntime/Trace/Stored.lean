import PathwayRuntime.Trace.Binding

/-!
# The outcomes behind a conclusion

* `StoredAs`: the row of an attempt stores a result; `ExecutionResult.Confirmed`: a success is verified.
* `SerialReach.entry`: an own step of the newest call, with what the call did since.
* `Resolved.source`, `Reconciled.source`: the result a call concludes from is a stored one: the one its
  `begin` found, or the one it stored itself.
* **`Commits.executed`**, **`Commits.observed`**: from which stored result a call concludes its pathway.
-/

set_option autoImplicit false

namespace Rpr

open Resume

/-- The row of the attempt stores this result. -/
def StoredAs (w : World) (x : String) (result : ExecutionResult) : Prop :=
  ∃ row stored, w.attempts.lookup x = some row ∧ row.outcome = some stored ∧
    stored.status = result.status ∧
    ∀ r, resultFromAttempt stored.json = .ok r → r.status = result.status ∧ r.verified = result.verified

/-- A success carries a verified readback. -/
def ExecutionResult.Confirmed (r : ExecutionResult) : Prop :=
  r.status = .succeeded → r.verified = true

instance (r : ExecutionResult) : Decidable r.Confirmed := by
  unfold ExecutionResult.Confirmed
  infer_instance

/-- A success is verified when it is observed. -/
theorem ReconciliationResult.confirmed (o : ReconciliationResult) : o.result.Confirmed := by
  intro h
  obtain ⟨status, evidence, reason⟩ := o
  cases status
  case verifiedApplied => rfl
  all_goals cases h

section Entries

variable {py : Platform} {order : Option RowOrder} {t : ℕ} {tr : List Record} {w : World}

/-- An own step of the newest call, and what the call did since. -/
theorem SerialReach.entry (h : SerialReach py order t tr w) {extra rest : Own} {s : Step}
    (hown : own t tr = extra ++ s :: rest) : ∃ newer e older, tr = newer ++ e :: older ∧
      newer.map Entry.step = extra ∧ e.tid = t ∧ e.step = s ∧ own t older = rest ∧
      SerialReach py order t older e.before ∧ Alone py order (s.effect e.before) extra w := by
  obtain ⟨newer, tail, w₁, rfl, hsteps, htail, hreach, halone⟩ := h.alone hown
  have hsplit : own t tail = [s] ++ rest := htail
  obtain ⟨one, older, w₂, rfl, hone, holder, hreach', halone'⟩ := hreach.alone hsplit
  obtain ⟨e, rfl, rfl⟩ := List.map_eq_singleton_iff.mp hone
  obtain ⟨hbefore, -, -, hw⟩ := hreach.reach.of_cons
  obtain rfl : e.before = w₂ := hreach'.reach.unique hbefore
  have htid : e.tid = t := by
    by_contra hne
    have hlen := congrArg List.length htail
    rw [List.singleton_append, own_cons_ne hne, holder] at hlen
    simp at hlen
  exact ⟨newer, e, older, rfl, hsteps, htid, rfl, holder, hreach', hw ▸ halone⟩

end Entries

section Sources

variable {py : Platform} {order : Option RowOrder} {w₀ w : World} {p actor x : String}
  {request : ExecutionRequest} {policy : RedactionPolicy} {result : ExecutionResult} {base own : Own}
  {row : AttemptRow} {stored : PersistedResult}

/-- A result that is read from a row is stored there. -/
theorem storedAs_of_read (hrow : w.attempts.lookup x = some row) (hout : row.outcome = some stored)
    (hr : resultFromAttempt stored.json = .ok result) : StoredAs w x result := by
  refine ⟨row, stored, hrow, hout, (PersistedResult.status_eq hr).symm, fun r hr' => ?_⟩
  obtain rfl := Except.ok.inj (hr.symm.trans hr')
  exact ⟨rfl, rfl⟩

/-- A result that is written to a row is stored there. -/
theorem storedAs_of_finish (hrow : w.attempts.lookup x = some row) (hres : persistResult result = .ok stored) :
    StoredAs (w.withAttempts (w.attempts.finish x stored).2) x result := by
  obtain ⟨hstatus, hread⟩ := persistResult_ok hres
  refine ⟨{ row with outcome := some stored }, stored, ?_, rfl, hstatus, hread⟩
  rw [World.attempts_withAttempts, Ledger.lookup_finish, if_pos rfl, hrow]
  rfl

theorem Recorded.alone (h : Recorded p base own) (ha : Alone py order w₀ own w) :
    ∃ w' event, Alone py order w₀ base w' ∧ w = w'.push event := by
  obtain ⟨event, hash, u, rfl⟩ := h
  obtain ⟨_, ⟨_, ⟨w', h', -, rfl⟩, -, rfl⟩, -, rfl⟩ := ha
  exact ⟨_, event, h', rfl⟩

/-- Right after the executor the attempt is started, and its pathway is running. -/
theorem Dispatched.alone (h : Dispatched py policy p request actor result own)
    (ha : Alone py order w₀ own w) : (∃ row, w.attempts.lookup request.attemptId = some row ∧
      row.pathwayId = p ∧ row.outcome = none) ∧ w.state p = some .running := by
  obtain ⟨hcleared⟩ := h
  obtain ⟨w', hcleared', -, rfl⟩ := ha
  obtain ⟨hbegun, hrun, -⟩ := hcleared.alone hcleared'
  exact ⟨hbegun.row, hrun⟩

/-- The call found the result with its `begin`. -/
def FoundAs (w : World) (p : String) (request : ExecutionRequest) (result : ExecutionResult)
    (rec : ExecutionAttemptRecord) (base : Own) : Prop :=
  ∃ fp own stored, base = .begin p request fp (.ok (true, rec)) :: own ∧ (∀ s ∈ own, s.quiet) ∧
    rec.outcome = some stored ∧ resultFromAttempt stored.json = .ok result ∧
    StoredAs w rec.attemptId result

theorem foundAs {fp : String} {rec : ExecutionAttemptRecord} (hq : ∀ s ∈ own, s.quiet)
    (hout : rec.outcome = some stored) (hr : resultFromAttempt stored.json = .ok result)
    (ha : Alone py order w₀ (.begin p request fp (.ok (true, rec)) :: own) w) :
    FoundAs w p request result rec (.begin p request fp (.ok (true, rec)) :: own) := by
  obtain ⟨w', -, hbegin, rfl⟩ := ha
  exact ⟨fp, own, stored, rfl, hq, hout, hr, storedAs_of_read (replayed_row hbegin).1 hout hr⟩

/-- **The result an execution ends with is stored**: it was found, or stored on a running pathway. -/
theorem Resolved.source (h : Resolved py policy p request actor result base)
    (ha : Alone py order w₀ base w) : (∃ rec, FoundAs w p request result rec base) ∨
      StoredAs w request.attemptId result ∧ w.state p = some .running := by
  cases h with
  | replayed h hrec hresult => exact .inl ⟨_, foundAs h.quiet hrec hresult ha⟩
  | settled h hres hown =>
    obtain ⟨w', event, h', rfl⟩ := hown.alone ha
    obtain ⟨w₁, hdis, -, rfl⟩ := h'
    obtain ⟨⟨row, hrow, -⟩, hrun⟩ := h.alone hdis
    exact .inr ⟨storedAs_of_finish hrow hres, hrun⟩

theorem ReconcileAdmitted.quiet (h : ReconcileAdmitted p actor own) : ∀ s ∈ own, s.quiet := by
  obtain ⟨hauth, hs⟩ := h
  simp [Step.quiet]

/-- **The result a reconciliation ends with is stored**: it was found, or stored by the step just made. -/
theorem Reconciled.source (h : Reconciled p request actor result base)
    (ha : Alone py order w₀ base w) : (∃ rec, FoundAs w p request result rec base ∧
        result.status ≠ .writeStatusUnknown) ∨
      ∃ (observed : ReconciliationResult) (res : PersistedResult) (rec : ExecutionAttemptRecord)
        (own : Own), result = observed.result ∧ observed.status ≠ .unresolved ∧
        base = .finish request.attemptId res (some rec) :: own ∧
        StoredAs w request.attemptId result := by
  cases h with
  | replayed h hrec hresult hstatus => exact .inl ⟨_, foundAs h.quiet hrec hresult ha, hstatus⟩
  | @settled observed res rec own h hs hres =>
    obtain ⟨w', -, hfinish, rfl⟩ := ha
    obtain ⟨row, hrow⟩ := Ledger.finish_eq_some hfinish.symm
    exact .inr ⟨observed, res, rec, own, rfl, hs, rfl, storedAs_of_finish hrow hres⟩

end Sources

/-! ## Conclusions of the newest call -/

section Newest

variable {py : Platform} {order : Option RowOrder} {t : ℕ} {tr : List Record} {w : World}
  {p actor : String} {request : ExecutionRequest} {policy : RedactionPolicy} {result : ExecutionResult}
  {base : Own}

/-- The newest call found the result with a `begin` in the present world. -/
def FoundBy (tr : List Record) (t : ℕ) (w : World) (p : String) (request : ExecutionRequest)
    (result : ExecutionResult) (rec : ExecutionAttemptRecord) : Prop :=
  ∃ b ∈ tr, b.tid = t ∧ b.before = w ∧ ∃ fp stored, b.step = .begin p request fp (.ok (true, rec)) ∧
    rec.outcome = some stored ∧ resultFromAttempt stored.json = .ok result

theorem FoundAs.by {rec : ExecutionAttemptRecord} (h : SerialReach py order t tr w)
    (hf : FoundAs w p request result rec base) (hq : QuietOver base (own t tr)) :
    FoundBy tr t w p request result rec := by
  obtain ⟨fp, own, stored, rfl, -, hout, hr, -⟩ := hf
  obtain ⟨newer, older, rfl, -, hown, hreach⟩ := h.quiet hq
  have hsplit : Resume.own t older = [] ++ .begin p request fp (.ok (true, rec)) :: own := hown
  obtain ⟨newer', b, older', rfl, hnil, htid, hstep, -, -, halone⟩ := hreach.entry hsplit
  refine ⟨b, by simp, htid, ?_, fp, stored, hstep, hout, hr⟩
  exact (alone_nil.mp halone).symm

/-- **Where the newest execution has its result from.** -/
theorem Resolved.concluded (h : SerialReach py order t tr w)
    (hres : Resolved py policy p request actor result base) (hq : QuietOver base (own t tr)) :
    (∃ rec, FoundBy tr t w p request result rec ∧ StoredAs w rec.attemptId result) ∨
      StoredAs w request.attemptId result ∧ w.state p = some .running := by
  obtain ⟨newer, older, htr, -, hown, hreach⟩ := h.quiet hq
  obtain ⟨-, -, w₀, -, -, -, halone⟩ := hreach.whole
  rw [hown] at halone
  rcases hres.source halone with ⟨rec, hf⟩ | hstored
  · have hstored := hf
    obtain ⟨-, -, -, -, -, -, -, hstored⟩ := hstored
    exact .inl ⟨rec, hf.by h hq, hstored⟩
  · exact .inr hstored

/-- **Where the newest reconciliation has its result from.** -/
theorem Reconciled.concluded (h : SerialReach py order t tr w)
    (hres : Reconciled p request actor result base) (hq : QuietOver base (own t tr)) :
    (∃ rec, FoundBy tr t w p request result rec ∧ StoredAs w rec.attemptId result ∧
        result.status ≠ .writeStatusUnknown) ∨
      ∃ observed : ReconciliationResult, result = observed.result ∧ observed.status ≠ .unresolved ∧
        StoredAs w request.attemptId result ∧
        ∃ f ∈ tr, f.tid = t ∧ w = f.step.effect f.before ∧
          ∃ res rec, f.step = .finish request.attemptId res (some rec) := by
  obtain ⟨newer, older, rfl, -, hown, hreach⟩ := h.quiet hq
  obtain ⟨-, -, w₀, -, -, -, halone⟩ := hreach.whole
  rw [hown] at halone
  rcases hres.source halone with ⟨rec, hf, hstatus⟩ | ⟨observed, res, rec, own, hr, hs, rfl, hstored⟩
  · have hstored := hf
    obtain ⟨-, -, -, -, -, -, -, hstored⟩ := hstored
    exact .inl ⟨rec, hf.by h hq, hstored, hstatus⟩
  · have hsplit : Resume.own t older = [] ++ .finish request.attemptId res (some rec) :: own := hown
    obtain ⟨newer', f, older', rfl, -, htid, hstep, -, -, halone'⟩ := hreach.entry hsplit
    refine .inr ⟨observed, hr, hs, hstored, f, by simp, htid, ?_, res, rec, hstep⟩
    rw [hstep]
    exact alone_nil.mp halone'

theorem Moves.quiet {target : PathwayState} {mover : String} {own' : Own}
    (h : Moves py policy p request actor target mover own') (hne : target ≠ .writeStatusUnknown) :
    ∃ result reason base, Resolved py policy p request actor result base ∧
      result.finalTarget = some (target, reason) ∧ QuietOver base own' := by
  cases h with
  | completed h hr => exact ⟨_, _, _, h, hr, (QuietOver.refl _).cons rfl⟩
  | failed h hr => exact ⟨_, _, _, h, hr, ((QuietOver.refl _).cons rfl).cons rfl⟩
  | unknown | rejected | unresolved => exact absurd rfl hne

theorem LateBase.quiet {own own' : Own} (h : LateBase p result own own') : QuietOver own own' := by
  cases h with
  | completed => exact (QuietOver.refl own).cons rfl
  | failed => exact ((QuietOver.refl own).cons rfl).cons rfl

variable {c : Call} {cur target : PathwayState} {event : EvidenceEvent}

/-- **How an execution concludes its pathway**: from the result its `begin` found, or from one it has
stored, on a running pathway. -/
theorem Commits.executed (h : SerialReach py order t tr w)
    (hj : Commits py c (own t tr) p cur target event) (hcur : w.state p = some cur)
    (hc : c.method = .execute p request actor) (hend : target = .completed ∨ target = .repairRequired) :
    ∃ result reason, result.finalTarget = some (target, reason) ∧
      ((∃ rec, FoundBy tr t w p request result rec ∧ StoredAs w rec.attemptId result) ∨
        StoredAs w request.attemptId result ∧ cur = .running) := by
  have hconclude : ∀ {result base}, Resolved py c.policy p request actor result base →
      QuietOver base (own t tr) →
      (∃ rec, FoundBy tr t w p request result rec ∧ StoredAs w rec.attemptId result) ∨
        StoredAs w request.attemptId result ∧ cur = .running := fun hres hq =>
    (hres.concluded h hq).imp id (And.imp id fun hrun => Option.some.inj (hcur.symm.trans hrun))
  have hsame : ∀ {q request' actor'}, c.method = .execute q request' actor' →
      request' = request ∧ actor' = actor := by
    intro q request' actor' hc'
    obtain ⟨-, rfl, rfl⟩ := Method.execute.inj (hc'.symm.trans hc)
    exact ⟨rfl, rfl⟩
  cases hj with
  | requested hc' =>
    rw [hc] at hc'
    exact hc'.elim
  | moved hc' hmove hcheck hseal =>
    obtain ⟨rfl, rfl⟩ := hsame hc'
    obtain ⟨result, reason, base, hres, hr, hq⟩ := hmove.quiet (by rcases hend with rfl | rfl <;> decide)
    exact ⟨result, reason, hr, hconclude hres (hq.trans (hcheck.quiet.trans hseal.quiet))⟩
  | started => rcases hend with h | h <;> cases h
  | late hc' hres hr hbase hseal =>
    obtain ⟨rfl, rfl⟩ := hsame hc'
    exact ⟨_, _, hr, hconclude hres (hbase.quiet.trans hseal.quiet)⟩
  | reconciled hc' | repaired hc' | resumed hc' | closed hc' => cases hc'.symm.trans hc

/-- **How a reconciliation concludes its pathway**: from the final result its `begin` found, or from the
observation it has just stored. -/
theorem Commits.observed (h : SerialReach py order t tr w)
    (hj : Commits py c (own t tr) p cur target event) (hc : c.method = .reconcile p request actor) :
    cur = .writeStatusUnknown ∧ ∃ result, target = result.reconciledTarget ∧
      ((∃ rec, FoundBy tr t w p request result rec ∧ StoredAs w rec.attemptId result ∧
          result.status ≠ .writeStatusUnknown) ∨
        ∃ observed : ReconciliationResult, result = observed.result ∧ observed.status ≠ .unresolved ∧
          StoredAs w request.attemptId result ∧
          ∃ f ∈ tr, f.tid = t ∧ w = f.step.effect f.before ∧
            ∃ res rec, f.step = .finish request.attemptId res (some rec)) := by
  cases hj with
  | requested hc' =>
    rw [hc] at hc'
    exact hc'.elim
  | reconciled hc' hres hseal =>
    obtain ⟨-, rfl, rfl⟩ := Method.reconcile.inj (hc'.symm.trans hc)
    exact ⟨rfl, _, rfl, hres.concluded h (((QuietOver.refl _).cons rfl).trans hseal.quiet)⟩
  | moved hc' | started hc' | late hc' | repaired hc' | resumed hc' | closed hc' =>
    cases hc'.symm.trans hc

end Newest

end Rpr
