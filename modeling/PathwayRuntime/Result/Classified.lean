import PathwayRuntime.Trace.Solo
import PathwayRuntime.Trace.Stored

/-!
# What concludes a pathway

* `completesOwn`: a success found by `begin` that would complete the pathway is the verified one of the
  request's own attempt.
* **`completion_verified`**: then an attempt that completes its pathway is stored as a verified success.
* `completion_unverified`: a reconciliation completes a pathway from an unverified success.
* `resolvesOwn`: an outcome that would resolve an unknown write is that of the bound attempt.
* **`unknown_resolved`**: then unknown writes are resolved by the bound attempt only.
* `unknown_misresolved`: an older attempt resolves the unknown write of its successor.
-/

set_option autoImplicit false

namespace Rpr

open Resume

/-- The method reconciles. -/
def Method.reconciles : Method → Bool
  | .reconcile .. => true
  | _ => false

/-- The method executes or reconciles this request. -/
def Method.Concludes (m : Method) (p : String) (request : ExecutionRequest) : Prop :=
  ∃ actor, m = .execute p request actor ∨ m = .reconcile p request actor

/-- The result a row stores. -/
def AttemptRow.result? (row : AttemptRow) : Option ExecutionResult :=
  row.outcome.bind fun stored => (resultFromAttempt stored.json).toOption

theorem AttemptRow.result?_eq_some {row : AttemptRow} {stored : PersistedResult} {r : ExecutionResult}
    (hout : row.outcome = some stored) (hr : resultFromAttempt stored.json = .ok r) :
    row.result? = some r := by
  rw [AttemptRow.result?, hout, Option.bind_some, hr]
  rfl

/-- A success found by `begin` that would complete the pathway is the verified one of the request's own
attempt. -/
def completesOwn (e : Record) : Bool :=
  match e.step with
  | .begin p request _ (.ok (true, rec)) =>
    match rec.result? with
    | none => true
    | some result =>
      if result.status = .succeeded ∧ (result.verified ∨ e.caller.method.reconciles) ∧
          (e.before.state p = some .running ∨ e.before.state p = some .writeStatusUnknown) then
        rec.attemptId = request.attemptId ∧ result.verified
      else true
  | _ => true

/-- An outcome that would resolve an unknown write, found by `begin` or stored by a reconciliation, is
that of the bound attempt. -/
def resolvesOwn (e : Record) : Bool :=
  match e.step with
  | .begin p _ _ (.ok (true, rec)) =>
    match rec.result? with
    | none => true
    | some result =>
      if e.before.state p = some .writeStatusUnknown ∧
          (result.finalTarget.isSome ∨ e.caller.method.reconciles ∧ result.status ≠ .writeStatusUnknown) then
        activeAttempt (e.before.log p) = .ok rec.attemptId
      else true
  | .finish x res (some _) =>
    if e.caller.method.reconciles ∧ res.status ≠ .writeStatusUnknown ∧
        e.before.state e.caller.method.pathwayId = some .writeStatusUnknown then
      activeAttempt (e.before.log e.caller.method.pathwayId) = .ok x
    else true
  | _ => true

section Concluded

variable {py : Platform} {order : Option RowOrder} {calls : List (Call × List Oracle)} {p : String}
  {cur target : PathwayState} {event : EvidenceEvent} {request : ExecutionRequest}

/-- A commit of a run, with the history it was made in. -/
theorem sequential_commit {e : Record} (he : e ∈ (sequential py order calls).trace)
    (hstep : e.step = .transitionWithEvent p cur target event (.ok ())) :
    ∃ older, (∀ m ∈ older, m ∈ (sequential py order calls).trace ∧ (m.tid = e.tid → m.caller = e.caller)) ∧
      SerialReach py order e.tid older e.before ∧
      Commits py e.caller (own e.tid older) p cur target event ∧ e.before.state p = some cur := by
  obtain ⟨hreach, hserial, -⟩ := sequential_reach py order calls
  obtain ⟨newer, older, htr⟩ := List.append_of_mem he
  have hcallers := hreach.callers
  rw [htr] at hreach hserial hcallers ⊢
  obtain ⟨hbefore, hj⟩ := hreach.of_append
  obtain ⟨hlast, hold⟩ := List.pairwise_cons.mp (List.pairwise_append.mp hserial).2.1
  have hanswer := hreach.answers
  rw [hstep] at hj hanswer
  refine ⟨older, fun m hm => ⟨by simp [hm], fun ht => hcallers m (by simp [hm]) e (by simp) ht⟩,
    ⟨hbefore, hold, hlast⟩, hj, (World.transitionWithEvent_ok hanswer.symm).1⟩

/-- What the row of a stored result says. -/
theorem StoredAs.row {w : World} {x : String} {result : ExecutionResult} (h : StoredAs w x result) :
    ∃ row r, w.attempts.lookup x = some row ∧ row.final = some result.status ∧ row.result? = some r ∧
      r.verified = result.verified := by
  obtain ⟨row, stored, hrow, hout, hstatus, hread⟩ := h
  obtain ⟨r, hr, -⟩ := stored.decodes
  refine ⟨row, r, hrow, ?_, AttemptRow.result?_eq_some hout hr, (hread r hr).2⟩
  rw [AttemptRow.final, hout, ← hstatus]
  rfl

/-- A result the call found with its `begin`, at an entry of the run. -/
theorem FoundBy.entry {e : Record} {older : List Record} {result : ExecutionResult}
    {rec : ExecutionAttemptRecord} (h : FoundBy older e.tid e.before p request result rec)
    (hold : ∀ m ∈ older, m ∈ (sequential py order calls).trace ∧ (m.tid = e.tid → m.caller = e.caller)) :
    ∃ b ∈ (sequential py order calls).trace, b.caller = e.caller ∧ b.before = e.before ∧
      rec.result? = some result ∧ ∃ fp, b.step = .begin p request fp (.ok (true, rec)) := by
  obtain ⟨b, hb, htid, hbefore, fp, stored, hstep, hout, hr⟩ := h
  exact ⟨b, (hold b hb).1, (hold b hb).2 htid, hbefore, AttemptRow.result?_eq_some hout hr, fp, hstep⟩

/-- A success that completes its pathway is found for the request's own attempt. -/
theorem completesOwn_found {b : Record} {fp : String} {rec : ExecutionAttemptRecord}
    {result : ExecutionResult} (h : completesOwn b = true)
    (hstep : b.step = .begin p request fp (.ok (true, rec))) (hresult : rec.result? = some result)
    (hs : result.status = .succeeded) (hv : result.verified = true ∨ b.caller.method.reconciles = true)
    (hstate : b.before.state p = some .running ∨ b.before.state p = some .writeStatusUnknown) :
    rec.attemptId = request.attemptId ∧ result.verified = true := by
  unfold completesOwn at h
  simp only [hstep, hresult] at h
  rw [if_pos ⟨hs, hv, hstate⟩] at h
  exact of_decide_eq_true h

end Concluded

/-- **Completion needs a verified readback**, in every run in which the successes found by `begin` that
would complete a pathway are verified and of the request's own attempt. -/
theorem completion_verified (py : Platform) (order : Option RowOrder)
    (calls : List (Call × List Oracle))
    (hrun : ∀ e ∈ (sequential py order calls).trace, completesOwn e = true) :
    ∀ e ∈ (sequential py order calls).trace, ∀ p cur event request,
      e.step = .transitionWithEvent p cur .completed event (.ok ()) →
      e.caller.method.Concludes p request →
      ∃ row result, e.before.attempts.lookup request.attemptId = some row ∧
        row.final = some .succeeded ∧ row.result? = some result ∧ result.verified = true := by
  intro e he p cur event request hstep hc
  obtain ⟨older, hold, hserial, hcommit, hcur⟩ := sequential_commit he hstep
  have hstate : e.before.state p = some .running ∨ e.before.state p = some .writeStatusUnknown := by
    have hedge := hcommit.edge.1
    rw [hcur]
    revert hedge
    cases cur <;> decide
  have hverified : ∀ {result : ExecutionResult}, StoredAs e.before request.attemptId result →
      result.status = .succeeded → result.verified = true →
      ∃ row result, e.before.attempts.lookup request.attemptId = some row ∧
        row.final = some .succeeded ∧ row.result? = some result ∧ result.verified = true := by
    intro result hstored hs hv
    obtain ⟨row, r, hrow, hfinal, hresult, hsame⟩ := hstored.row
    exact ⟨row, r, hrow, hs ▸ hfinal, hresult, hsame.trans hv⟩
  -- A result that was found is verified and of the own attempt.
  have hfound : ∀ {result rec}, FoundBy older e.tid e.before p request result rec →
      StoredAs e.before rec.attemptId result → result.status = .succeeded →
      (result.verified = true ∨ e.caller.method.reconciles = true) →
      StoredAs e.before request.attemptId result ∧ result.verified = true := by
    intro result rec hf hstored hs hv
    obtain ⟨b, hb, hcaller, hbefore, hresult, fp, hstep⟩ := hf.entry hold
    obtain ⟨hsame, hv'⟩ := completesOwn_found (hrun b hb) hstep hresult hs (by rwa [hcaller])
      (by rwa [hbefore])
    exact ⟨hsame ▸ hstored, hv'⟩
  obtain ⟨actor, hc | hc⟩ := hc
  · obtain ⟨result, reason, hfinal, hsource⟩ := hcommit.executed hserial hcur hc (.inl rfl)
    obtain ⟨-, hs, hv⟩ | ⟨h, -⟩ := ExecutionResult.finalTarget_cases hfinal
    · rcases hsource with ⟨rec, hf, hstored⟩ | ⟨hstored, -⟩
      · exact hverified (hfound hf hstored hs (.inl hv)).1 hs hv
      · exact hverified hstored hs hv
    · cases h
  · obtain ⟨-, result, htarget, hsource⟩ := hcommit.observed hserial hc
    have hs : result.status = .succeeded := by
      unfold ExecutionResult.reconciledTarget at htarget
      split_ifs at htarget with hs
      exact hs
    rcases hsource with ⟨rec, hf, hstored, -⟩ | ⟨observed, rfl, hne, hstored, -⟩
    · obtain ⟨hstored', hv⟩ := hfound hf hstored hs (.inr (by rw [hc]; rfl))
      exact hverified hstored' hs hv
    · exact hverified hstored hs (ReconciliationResult.confirmed observed hs)

variable {p : String}

/-- The step completes the pathway. -/
def Step.completes (p : String) : Step → Bool
  | .transitionWithEvent q _ .completed _ (.ok ()) => q = p
  | _ => false

theorem Step.completes_eq_true {s : Step} (h : s.completes p = true) :
    ∃ cur event, s = .transitionWithEvent p cur .completed event (.ok ()) := by
  unfold completes at h
  split at h
  · obtain rfl := of_decide_eq_true h
    exact ⟨_, _, rfl⟩
  · cases h

/-- The unknown write of `a` is reconciled. -/
def reconciledA : List (Call × List Oracle) := unknownCalls ++ [observing requestA ⟨.verifiedApplied, [], none⟩]

/-- The reconciliations of these calls are of the attempt `a`. -/
theorem reconciles_requestA {calls : List (Call × List Oracle)}
    (hcalls : ∀ call ∈ calls, call.1.method.reconciles = true → call.1.method.Concludes "p" requestA) :
    ∀ e ∈ (sequential .sample none calls).trace, e.caller.method.reconciles = true →
      e.caller.method.Concludes "p" requestA :=
  sequential_callers (P := fun c => c.method.reconciles = true → c.method.Concludes "p" requestA) hcalls

theorem completion_verified_reconciled : ∃ e ∈ (sequential .sample none reconciledA).trace,
    e.step.completes "p" = true ∧ ∃ row result, e.before.attempts.lookup "a" = some row ∧
      row.final = some .succeeded ∧ row.result? = some result ∧ result.verified = true := by
  have hrun : (∀ e ∈ (sequential .sample none reconciledA).trace, completesOwn e = true) ∧
      ∃ e ∈ (sequential .sample none reconciledA).trace, e.step.completes "p" = true ∧
        e.caller.method.reconciles = true := by
    decide +kernel
  obtain ⟨hown, e, he, hcompletes, hmethod⟩ := hrun
  obtain ⟨cur, event, hstep⟩ := Step.completes_eq_true hcompletes
  have hc : e.caller.method.Concludes "p" requestA := by
    refine reconciles_requestA ?_ e he hmethod
    intro call hcall h
    simp only [reconciledA, unknownCalls, approvedCalls, List.mem_append, List.mem_singleton] at hcall
    rcases hcall with (rfl | rfl) | rfl
    · cases h
    · cases h
    · exact ⟨"auditor", .inr rfl⟩
  exact ⟨e, he, hcompletes, completion_verified .sample none _ hown e he "p" cur event requestA hstep hc⟩

/-- An unverified success of `a`, whose unknown write is then reconciled. -/
def unverifiedA : List (Call × List Oracle) :=
  approvedCalls ++ [executing requestA ⟨.succeeded, [], none, none⟩,
    observing requestA ⟨.unresolved, [], none⟩]

/-- **A reconciliation completes a pathway whose success was never verified.** -/
theorem completion_unverified : ¬ ∀ (py : Platform) (order : Option RowOrder)
    (calls : List (Call × List Oracle)), ∀ e ∈ (sequential py order calls).trace,
    ∀ p cur event request, e.step = .transitionWithEvent p cur .completed event (.ok ()) →
      e.caller.method.Concludes p request →
      ∃ row result, e.before.attempts.lookup request.attemptId = some row ∧
        row.final = some .succeeded ∧ row.result? = some result ∧ result.verified = true := by
  intro h
  have hrun : ∃ e ∈ (sequential .sample none unverifiedA).trace, e.step.completes "p" = true ∧
      e.caller.method.reconciles = true ∧
      ((e.before.attempts.lookup "a").bind AttemptRow.result?).map ExecutionResult.verified = some false := by
    decide +kernel
  obtain ⟨e, he, hcompletes, hmethod, hfalse⟩ := hrun
  obtain ⟨cur, event, hstep⟩ := Step.completes_eq_true hcompletes
  have hc : e.caller.method.Concludes "p" requestA := by
    refine reconciles_requestA ?_ e he hmethod
    intro call hcall h
    simp only [unverifiedA, approvedCalls, List.mem_append, List.mem_cons, List.not_mem_nil,
      or_false] at hcall
    rcases hcall with rfl | rfl | rfl
    · cases h
    · cases h
    · exact ⟨"auditor", .inr rfl⟩
  obtain ⟨row, result, hrow, -, hresult, hverified⟩ := h .sample none _ e he "p" cur event requestA hstep hc
  have hread : (e.before.attempts.lookup "a").bind AttemptRow.result? = some result := by
    rw [show e.before.attempts.lookup "a" = some row from hrow]
    exact hresult
  rw [hread, Option.map_some, hverified] at hfalse
  cases hfalse

/-! ## Unknown writes -/

section Unknown

variable {py : Platform} {order : Option RowOrder} {calls : List (Call × List Oracle)}
  {request : ExecutionRequest}

/-- An outcome that resolves an unknown write is found for the bound attempt. -/
theorem resolvesOwn_found {b : Record} {fp : String} {rec : ExecutionAttemptRecord}
    {result : ExecutionResult} (h : resolvesOwn b = true)
    (hstep : b.step = .begin p request fp (.ok (true, rec))) (hresult : rec.result? = some result)
    (hstate : b.before.state p = some .writeStatusUnknown)
    (hends : result.finalTarget.isSome = true ∨
      b.caller.method.reconciles = true ∧ result.status ≠ .writeStatusUnknown) :
    activeAttempt (b.before.log p) = .ok rec.attemptId := by
  unfold resolvesOwn at h
  simp only [hstep, hresult] at h
  rw [if_pos ⟨hstate, hends⟩] at h
  exact of_decide_eq_true h

/-- An outcome that resolves an unknown write is stored for the bound attempt. -/
theorem resolvesOwn_stored {f : Record} {x : String} {res : PersistedResult}
    {rec : ExecutionAttemptRecord} (h : resolvesOwn f = true) (hstep : f.step = .finish x res (some rec))
    (hp : f.caller.method.pathwayId = p) (hmethod : f.caller.method.reconciles = true)
    (hstatus : res.status ≠ .writeStatusUnknown) (hstate : f.before.state p = some .writeStatusUnknown) :
    activeAttempt (f.before.log p) = .ok x := by
  subst hp
  unfold resolvesOwn at h
  simp only [hstep] at h
  rw [if_pos ⟨hmethod, hstatus, hstate⟩] at h
  exact of_decide_eq_true h

/-- Right after a row was finished it stores what it was finished with. -/
theorem StoredAs.finished {w : World} {x : String} {res : PersistedResult} {result : ExecutionResult}
    (h : StoredAs (w.withAttempts (w.attempts.finish x res).2) x result) : res.status = result.status := by
  obtain ⟨row, stored, hrow, hout, hstatus, -⟩ := h
  rw [World.attempts_withAttempts, Ledger.lookup_finish, if_pos rfl] at hrow
  obtain ⟨row', -, rfl⟩ := Option.map_eq_some_iff.mp hrow
  obtain rfl := Option.some.inj hout
  exact hstatus

/-- An execution takes a pathway out of an unknown write to `COMPLETED` or to `REPAIR_REQUIRED`. -/
theorem Commits.executed_ends {c : Call} {own : Own} {target : PathwayState} {event : EvidenceEvent}
    {actor : String} (h : Commits py c own p .writeStatusUnknown target event)
    (hc : c.method = .execute p request actor) : target = .completed ∨ target = .repairRequired := by
  have hedge := h.edge.1
  cases h with
  | requested hc' =>
    rw [hc] at hc'
    exact hc'.elim
  | moved hc' hmove =>
    rcases hmove.target_cases with h | h | rfl
    · exact .inl h
    · exact .inr h
    · exact absurd hedge (by decide)
  | started => exact absurd hedge (by decide)
  | late hc' hres hr => exact (ExecutionResult.finalTarget_cases hr).imp And.left And.left
  | reconciled hc' | repaired hc' | resumed hc' | closed hc' => cases hc'.symm.trans hc

/-- A final result and its reconciliation lead to the same state. -/
theorem ExecutionResult.reconciledTarget_eq {result : ExecutionResult} {target : PathwayState}
    {reason : PyText} (h : result.finalTarget = some (target, reason)) :
    target = result.reconciledTarget ∧ result.status ≠ .writeStatusUnknown := by
  rcases ExecutionResult.finalTarget_cases h with ⟨rfl, hs, -⟩ | ⟨rfl, hs⟩ <;>
    simp [ExecutionResult.reconciledTarget, hs]

end Unknown

/-- **Unknown writes are resolved by the bound attempt**, in every run in which the outcomes that are
found or stored for an unknown write are those of the bound attempt. -/
theorem unknown_resolved (py : Platform) (order : Option RowOrder)
    (calls : List (Call × List Oracle))
    (hrun : ∀ e ∈ (sequential py order calls).trace, resolvesOwn e = true) :
    ∀ e ∈ (sequential py order calls).trace, ∀ p target event request,
      e.step = .transitionWithEvent p .writeStatusUnknown target event (.ok ()) →
      e.caller.method.Concludes p request →
      ∃ x row result, activeAttempt (e.before.log p) = .ok x ∧
        e.before.attempts.lookup x = some row ∧ row.result? = some result ∧
        row.final = some result.status ∧ result.status ≠ .writeStatusUnknown ∧
        target = result.reconciledTarget := by
  intro e he p target event request hstep hc
  obtain ⟨older, hold, hserial, hcommit, hcur⟩ := sequential_commit he hstep
  -- The stored result is the one that is applied.
  have hstored : ∀ {x : String} {result : ExecutionResult},
      activeAttempt (e.before.log p) = .ok x → StoredAs e.before x result →
      result.status ≠ .writeStatusUnknown → target = result.reconciledTarget →
      ∃ x row result, activeAttempt (e.before.log p) = .ok x ∧
        e.before.attempts.lookup x = some row ∧ row.result? = some result ∧
        row.final = some result.status ∧ result.status ≠ .writeStatusUnknown ∧
        target = result.reconciledTarget := by
    intro x result hactive hstored hne ht
    obtain ⟨row, stored, hrow, hout, hstatus, hread⟩ := hstored
    obtain ⟨r, hr, -⟩ := stored.decodes
    have hsame := (hread r hr).1
    refine ⟨x, row, r, hactive, hrow, AttemptRow.result?_eq_some hout hr, ?_, hsame ▸ hne, ?_⟩
    · rw [AttemptRow.final, hout, Option.map_some, hstatus, hsame]
    · rw [ht, ExecutionResult.reconciledTarget, ExecutionResult.reconciledTarget, hsame]
  have hfound : ∀ {result rec}, FoundBy older e.tid e.before p request result rec →
      (result.finalTarget.isSome = true ∨
        e.caller.method.reconciles = true ∧ result.status ≠ .writeStatusUnknown) →
      activeAttempt (e.before.log p) = .ok rec.attemptId := by
    intro result rec hf hends
    obtain ⟨b, hb, hcaller, hbefore, hresult, fp, hbegin⟩ := hf.entry hold
    rw [← hbefore] at hcur ⊢
    exact resolvesOwn_found (hrun b hb) hbegin hresult hcur (by rwa [hcaller])
  obtain ⟨actor, hc | hc⟩ := hc
  · obtain ⟨result, reason, hfinal, hsource⟩ :=
      hcommit.executed hserial hcur hc (hcommit.executed_ends hc)
    obtain ⟨ht, hne⟩ := ExecutionResult.reconciledTarget_eq hfinal
    rcases hsource with ⟨rec, hf, hs⟩ | ⟨-, hrunning⟩
    · exact hstored (hfound hf (.inl (by rw [hfinal]; rfl))) hs hne ht
    · cases hrunning
  · obtain ⟨-, result, ht, hsource⟩ := hcommit.observed hserial hc
    rcases hsource with ⟨rec, hf, hs, hne⟩ | ⟨observed, rfl, hopen, hs, f, hf, htid, hw, res, rec, hfinish⟩
    · exact hstored (hfound hf (.inr ⟨by rw [hc]; rfl, hne⟩)) hs hne ht
    · rw [hfinish] at hw
      have hresult := hs
      rw [hw] at hresult
      have hstatus := StoredAs.finished hresult
      have hne : observed.result.status ≠ .writeStatusUnknown := by
        obtain ⟨status, evidence, reason⟩ := observed
        cases status
        case unresolved => exact absurd rfl hopen
        all_goals exact ExecutionStatus.noConfusion
      have hcaller := (hold f hf).2 htid
      have hstate : f.before.state p = some .writeStatusUnknown := by
        rw [← hcur, hw]
        rfl
      have hactive := resolvesOwn_stored (hrun f (hold f hf).1) hfinish (by rw [hcaller, hc]; rfl)
        (by rw [hcaller, hc]; rfl) (hstatus ▸ hne) hstate
      refine hstored (x := request.attemptId) ?_ hs hne ht
      rw [hw]
      exact hactive

/-- The step takes the pathway out of an unknown write. -/
def Step.resolves (p : String) : Step → Bool
  | .transitionWithEvent q .writeStatusUnknown _ _ (.ok ()) => q = p
  | _ => false

theorem Step.resolves_eq_true {s : Step} (h : s.resolves p = true) :
    ∃ target event, s = .transitionWithEvent p .writeStatusUnknown target event (.ok ()) := by
  unfold resolves at h
  split at h
  · obtain rfl := of_decide_eq_true h
    exact ⟨_, _, rfl⟩
  · cases h

/-- The method executes or reconciles. -/
def Method.concludes : Method → Bool
  | .execute .. | .reconcile .. => true
  | _ => false

theorem Method.concludes_eq_true {m : Method} (h : m.concludes = true) (hp : m.pathwayId = p) :
    ∃ request, m.Concludes p request := by
  subst hp
  cases m
  case execute q request actor => exact ⟨request, actor, .inl rfl⟩
  case reconcile q request actor => exact ⟨request, actor, .inr rfl⟩
  all_goals cases h

theorem unknown_resolved_reconciled : ∃ e ∈ (sequential .sample none reconciledA).trace,
    e.step.resolves "p" = true ∧ ∃ x row result, activeAttempt (e.before.log "p") = .ok x ∧
      e.before.attempts.lookup x = some row ∧ row.result? = some result ∧
      row.final = some result.status ∧ result.status ≠ .writeStatusUnknown := by
  have hrun : (∀ e ∈ (sequential .sample none reconciledA).trace, resolvesOwn e = true) ∧
      ∃ e ∈ (sequential .sample none reconciledA).trace, e.step.resolves "p" = true ∧
        e.caller.method.concludes = true ∧ e.caller.method.pathwayId = "p" := by
    decide +kernel
  obtain ⟨hown, e, he, hresolves, hmethod, hp⟩ := hrun
  obtain ⟨target, event, hstep⟩ := Step.resolves_eq_true hresolves
  obtain ⟨request, hc⟩ := Method.concludes_eq_true hmethod hp
  obtain ⟨x, row, result, hactive, hrow, hresult, hfinal, hne, -⟩ :=
    unknown_resolved .sample none _ hown e he "p" target event request hstep hc
  exact ⟨e, he, hresolves, x, row, result, hactive, hrow, hresult, hfinal, hne⟩

/-- The attempt `a` failed and was repaired; its successor `b` ends unknown, and then `a` is executed
again. -/
def replayedA : List (Call × List Oracle) :=
  failedRepaired ++ [(Method.execute "p" requestB "executor").answered {},
    (Method.execute "p" requestA "executor").answered {}]

/-- **An older attempt resolves the unknown write of its successor.** -/
theorem unknown_misresolved : ¬ ∀ (py : Platform) (order : Option RowOrder)
    (calls : List (Call × List Oracle)), ∀ e ∈ (sequential py order calls).trace,
    ∀ p target event request,
      e.step = .transitionWithEvent p .writeStatusUnknown target event (.ok ()) →
      e.caller.method.Concludes p request →
      ∃ x row result, activeAttempt (e.before.log p) = .ok x ∧
        e.before.attempts.lookup x = some row ∧ row.result? = some result ∧
        row.final = some result.status ∧ result.status ≠ .writeStatusUnknown ∧
        target = result.reconciledTarget := by
  intro h
  have hrun : ∃ e ∈ (sequential .sample none replayedA).trace, e.step.resolves "p" = true ∧
      e.caller.method.concludes = true ∧ e.caller.method.pathwayId = "p" ∧
      (activeAttempt (e.before.log "p")).toOption = some "b" ∧
      (e.before.attempts.lookup "b").bind AttemptRow.final = some .writeStatusUnknown := by
    decide +kernel
  obtain ⟨e, he, hresolves, hmethod, hp, hbound, hunknown⟩ := hrun
  obtain ⟨target, event, hstep⟩ := Step.resolves_eq_true hresolves
  obtain ⟨request, hc⟩ := Method.concludes_eq_true hmethod hp
  obtain ⟨x, row, result, hactive, hrow, -, hfinal, hne, -⟩ :=
    h .sample none _ e he "p" target event request hstep hc
  rw [hactive] at hbound
  obtain rfl := Option.some.inj hbound
  rw [show e.before.attempts.lookup "b" = some row from hrow, Option.bind_some, hfinal] at hunknown
  exact hne (Option.some.inj hunknown)

end Rpr
