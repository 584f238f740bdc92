import PathwayRuntime.Trace.Methods

/-!
# Executions that end their pathway

* `Finalizable`: the result and the move it leads to can be recorded, and the owner of a failed
  execution is named without surrounding white space.
* `finishAccepted_running`: on a running pathway with a valid definition this is what the end of an
  execution needs.
* **`execute_finalizes`**: exactly then does `execute` return and leave the pathway ended.
* `execute_stuck`: a result the ledger accepts and the evidence log does not.
-/

set_option autoImplicit false

namespace Rpr

open Resume

/-- The reason of the move a result leads to. -/
def ExecutionResult.closingReason (r : ExecutionResult) : PyText :=
  match r.finalTarget with
  | none => PyText.orElse r.reason "executor_write_status_unknown"
  | some (_, reason) => reason

/-- The states an execution can end a pathway in. -/
def endedStates : List PathwayState := [.completed, .repairRequired, .writeStatusUnknown]

theorem ExecutionResult.pathwayTarget_ended (r : ExecutionResult) : r.pathwayTarget ∈ endedStates := by
  unfold pathwayTarget
  cases hr : r.finalTarget with
  | none => decide
  | some tr => rcases finalTarget_cases hr with ⟨h, -⟩ | ⟨h, -⟩ <;> simp [h, endedStates]

/-- What an execution needs after its executor, besides a ledger that accepts the result. -/
structure Finalizable (py : Platform) (policy : RedactionPolicy) (d : PathwayDefinition)
    (request : ExecutionRequest) (result : ExecutionResult) : Prop where
  outcome : Recordable py policy (request.fields ++ result.fields)
  move : Recordable py policy
    (edgeFields .running result.pathwayTarget ++ [("reason", .str result.closingReason)])
  owner : result.status = .failed → strip d.repairOwner = d.repairOwner

/-- A valid definition names a repair owner. -/
theorem repairOwner_of_valid {d : PathwayDefinition} (h : (inspectPathway d).valid = true) :
    strip d.repairOwner ≠ "" := by
  intro hblank
  have hmem : ∀ f ∈ requireField "repair_owner" d.repairOwner, f ∈ inspectionFindings d := by
    intro f hf
    simp only [inspectionFindings, List.mem_append, hf, true_or, or_true]
  have hfinding := hmem ⟨"repair_owner" ++ "_missing", "repair_owner" ++ " is required", .error⟩ (by
    rw [requireField, if_pos (by rw [isBlank, hblank]; rfl)]
    exact List.mem_singleton_self _)
  simp only [inspectPathway, List.isEmpty_iff] at h
  exact List.filter_eq_nil_iff.mp h _ hfinding rfl

section Finish

variable {py : Platform} {policy : RedactionPolicy} {actor : String} {request : ExecutionRequest}
  {result : ExecutionResult} {d : PathwayDefinition}

/-- A move out of `RUNNING` by the actor its rule names. -/
theorem transits_running {target : PathwayState} {reason : PyText} (rule : TransitionAuthority)
    (hrule : requiredAuthority d target = some rule) (hedge : target ∈ allowedTransitions .running)
    (hactor : strip actor ≠ "") (hne : rule.expectedActor ≠ "") :
    Transits py policy d .running target actor reason ↔
      strip actor = rule.expectedActor ∧
        Recordable py policy (edgeFields .running target ++ [("reason", .str reason)]) := by
  have hplain : target ≠ .running ∧ target ≠ .aborted := by
    constructor <;> rintro rfl <;> exact absurd hedge (by decide)
  have hauth : authorizeTransition d .running target actor = .ok () ↔ _ :=
    authorizeTransition_rule hrule hplain.1 hplain.2 (by simp)
  constructor
  · intro h
    exact ⟨(hauth.mp h.authority).2.2, h.record⟩
  · rintro ⟨hactor', hrecord⟩
    exact ⟨hplain.1, hedge, hauth.mpr ⟨hactor, hne, hactor'⟩, hrecord⟩

/-- **On a running pathway.** The execution actor may close it; the repair owner may if its name is
its stripped form. -/
theorem finishAccepted_running (hauth : authorizeExecutionAccess d actor = .ok ())
    (hvalid : (inspectPathway d).valid = true) :
    FinishAccepted py policy actor request result .running d ↔
      Recordable py policy
        (edgeFields .running result.pathwayTarget ++ [("reason", .str result.closingReason)]) ∧
      (result.status = .failed → strip d.repairOwner = d.repairOwner) := by
  obtain ⟨hexec, hactor⟩ := authorizeExecutionAccess_ok hauth
  have hexec' : d.executionActor ≠ "" := hexec ▸ hactor
  have howner := repairOwner_of_valid hvalid
  unfold FinishAccepted ExecutionResult.pathwayTarget ExecutionResult.closingReason
  cases hr : result.finalTarget with
  | none =>
    have hnotfailed : result.status ≠ .failed := by
      intro hfailed
      simp [ExecutionResult.finalTarget, hfailed] at hr
    simp only [hnotfailed, reduceCtorEq, false_or, IsEmpty.forall_iff, and_true]
    rw [transits_running ⟨"execution_actor", d.executionActor⟩ rfl (by decide) hactor hexec']
    exact and_iff_right hexec
  | some tr =>
    obtain ⟨target, reason⟩ := tr
    rcases ExecutionResult.finalTarget_cases hr with ⟨rfl, hs, -⟩ | ⟨rfl, hfailed⟩
    · simp only [hs, reduceCtorEq, if_false, false_or, false_and, or_false, true_and,
        IsEmpty.forall_iff, and_true]
      rw [transits_running ⟨"execution_actor", d.executionActor⟩ rfl (by decide) hactor hexec']
      exact and_iff_right hexec
    · simp only [hfailed, reduceCtorEq, if_true, false_or, false_and, or_false, true_and,
        forall_const]
      by_cases hstrip : strip d.repairOwner = d.repairOwner
      · have hne : d.repairOwner ≠ "" := hstrip ▸ howner
        rw [transits_running ⟨"repair_owner", d.repairOwner⟩ rfl (by decide) howner hne]
        exact and_comm
      · have hrefused : ¬ Transits py policy d .running .repairRequired d.repairOwner reason := fun h =>
          hstrip ((authorizeTransition_ok h.authority).2.2.2.2 (by decide) _ rfl).2
        simp [hrefused, hstrip]

end Finish

/-! ## Executions that were started -/

section Started

variable (py : Platform) (order : Option RowOrder) (calls : List (Call × List Oracle)) (c : Call)
  (os : List Oracle) (p actor : String)

/-- The last call is an execution of an `APPROVED` pathway with a valid definition; it was started,
and its executor led to a result that the ledger stores. No constraint was violated, and the call was
not cut short. -/
structure StartedExecution (request : ExecutionRequest) (d : PathwayDefinition)
    (outcome : ExecutorOutcome) : Prop where
  method : c.method = .execute p request actor
  approved : (sequential py order calls).world.state p = some .approved
  definition : (sequential py order calls).world.getDefinition py p = .ok d
  valid : (inspectPathway d).valid = true
  intact : ∀ s ∈ lastSteps py order calls c os, s.intact = true
  ended : (lastCall py order calls c os).1.ended = true
  started : ∃ s ∈ lastSteps py order calls c os, s.starts p = true
  answer : ∀ x, Step.invokeExecutor p request x ∈ lastSteps py order calls c os → x = outcome
  stored : ∃ res, persistResult outcome.result = .ok res

/-- The call returns a result and leaves the pathway ended. -/
def Finalizes : Prop :=
  (∃ r, (lastCall py order calls c os).1 = .returned (.executed r)) ∧
    ∃ s ∈ endedStates, (lastCall py order calls c os).2.world.state p = some s

variable {py order calls c os p actor} {request : ExecutionRequest} {d : PathwayDefinition}
  {outcome : ExecutorOutcome}

/-- A pathway that was started is not `APPROVED` any more. -/
theorem StartedExecution.left (h : StartedExecution py order calls c os p actor request d outcome) :
    (lastCall py order calls c os).2.world.state p ≠ some .approved := by
  obtain ⟨s, hs, hstarts⟩ := h.started
  obtain ⟨cur, event, rfl⟩ := Step.starts_eq_true hstarts
  obtain ⟨e, he, -, hstep⟩ := mem_own.mp hs
  obtain ⟨newer, older, htr⟩ := List.append_of_mem he
  have hreach := (sequential_reach py order (calls ++ [(c, os)])).1
  rw [← lastCall_hist, htr] at hreach
  obtain ⟨st, hst, hstate⟩ := started_ran hreach hstep
  intro happroved
  obtain rfl := Option.some.inj (hstate.symm.trans happroved)
  exact absurd hst (by decide)

end Started

/-- **When `execute` ends its pathway**: exactly when its result, and the move the result leads to,
can be recorded, and the repair owner of a failed execution is named without surrounding space. -/
theorem execute_finalizes (py : Platform) (order : Option RowOrder) (calls : List (Call × List Oracle))
    (c : Call) (os : List Oracle) (p actor : String) (request : ExecutionRequest) (d : PathwayDefinition)
    (outcome : ExecutorOutcome)
    (hrun : StartedExecution py order calls c os p actor request d outcome) :
    Finalizes py order calls c os p ↔ Finalizable py c.policy d request outcome.result := by
  obtain ⟨res, hres⟩ := hrun.stored
  have hbody : c.body py = (do return .executed (← execute py c.policy p request actor)) := by
    rw [Call.body, hrun.method]
  obtain ⟨-, hholds⟩ := solo_last (A := fun s => s.intact = true ∧ ∀ x,
    s = .invokeExecutor p request x → x = outcome) hbody solo_execute fun s hs =>
      ⟨hrun.intact s hs, fun x hx => hrun.answer x (hx ▸ hs)⟩
  have hadmits : ∀ {d' s}, Admits py (sequential py order calls).world p request actor d' s →
      d' = d ∧ s = .approved ∧ authorizeExecutionAccess d actor = .ok () := by
    intro d' s h
    obtain rfl := Except.ok.inj (h.definition.symm.trans hrun.definition)
    exact ⟨rfl, Option.some.inj (h.state.symm.trans hrun.approved), h.authority⟩
  unfold Finalizes
  cases hout : (lastCall py order calls c os).1 with
  | crashed =>
    have := hrun.ended
    rw [hout] at this
    cases this
  | returned value =>
    rw [hout] at hholds
    obtain ⟨r, rfl, hexec⟩ := hholds
    cases hexec with
    | replayed h hrow hstored hr hfin hstate =>
      obtain ⟨-, rfl, -⟩ := hadmits h
      exact absurd hfin not_finishAccepted_approved
    | unresolved h hs hr => exact absurd (hadmits h).2.1 hs
    | dispatched h ha hr hstate =>
      obtain ⟨rfl, rfl, hauth⟩ := hadmits h
      obtain rfl := ha.2 _ rfl
      rcases hr with ⟨rfl, hrecord, hfin⟩ | ⟨-, e, he⟩
      · obtain ⟨hmove, howner⟩ := (finishAccepted_running hauth hrun.valid).mp hfin
        exact iff_of_true ⟨⟨_, rfl⟩, _, ExecutionResult.pathwayTarget_ended _, hstate⟩
          ⟨hrecord, hmove, howner⟩
      · exact absurd (he.symm.trans hres) (by simp)
  | raised e =>
    rw [hout] at hholds
    refine iff_of_false (fun h => ?_) fun hfinal => ?_
    · obtain ⟨⟨r, hr⟩, -⟩ := h
      cases hr
    · cases hholds hrun.approved with
      | early hs => exact hrun.left hs
      | late h ha hr hs =>
        obtain ⟨rfl, -, hauth⟩ := hadmits h
        obtain rfl := ha.2 _ rfl
        have hfin : FinishAccepted py c.policy actor request _ .running _ :=
          (finishAccepted_running hauth hrun.valid).mpr ⟨hfinal.move, hfinal.owner⟩
        exact hr res hres ⟨hfinal.outcome, hfin, fun s hs => hs.1⟩

/-- An execution of `a` on an approved pathway, whose executor returns this result. -/
theorem executing_started {result : ExecutionResult} (hstored : (persistResult result).isOk = true)
    (hrun : (∀ s ∈ lastSteps .sample none approvedCalls (executing requestA result).1
        (executing requestA result).2, s.intact = true) ∧
      (lastCall .sample none approvedCalls (executing requestA result).1
        (executing requestA result).2).1.ended = true ∧
      ∃ s ∈ lastSteps .sample none approvedCalls (executing requestA result).1
        (executing requestA result).2, s.starts "p" = true) :
    StartedExecution .sample none approvedCalls (executing requestA result).1
      (executing requestA result).2 "p" "executor" requestA (.sample none) (.returned result) where
  method := rfl
  approved := by decide +kernel
  definition := by
    refine getDefinition_submitted (d := .sample none) ?_ (by decide +kernel)
    simp +contextual [approvedCalls, Method.answered, eq_comm]
  valid := by decide +kernel
  intact := hrun.1
  ended := hrun.2.1
  started := hrun.2.2
  answer := fun x hx => lastSteps_executor (by simp [executing, Method.answered]) hx
  stored := by
    show ∃ res, persistResult result = .ok res
    cases hres : persistResult result with
    | ok res => exact ⟨res, rfl⟩
    | error e =>
      rw [hres] at hstored
      cases hstored

/-- A success with a verified readback. -/
def verifiedSuccess : ExecutionResult := ⟨.succeeded, [], some ⟨true, [], none⟩, none⟩

theorem execute_finalizes_verified : Finalizes .sample none approvedCalls
      (executing requestA verifiedSuccess).1 (executing requestA verifiedSuccess).2 "p" ↔
    Finalizable .sample .default (.sample none) requestA verifiedSuccess :=
  execute_finalizes .sample none approvedCalls _ _ "p" "executor" requestA (.sample none)
    (.returned verifiedSuccess) (executing_started (by decide +kernel) (by decide +kernel))

/-- A success whose evidence is nested deeper than the evidence log stores. -/
def deepSuccess : ExecutionResult := ⟨.succeeded, deepEvidence, some ⟨true, [], none⟩, none⟩

/-- **A result the ledger accepts leaves its pathway `RUNNING`**: the evidence log rejects its
payload after the row was finished, and `execute` raises. -/
theorem execute_stuck : ¬ ∀ (py : Platform) (order : Option RowOrder)
    (calls : List (Call × List Oracle)) (c : Call) (os : List Oracle) (p actor : String)
    (request : ExecutionRequest) (d : PathwayDefinition) (outcome : ExecutorOutcome),
    StartedExecution py order calls c os p actor request d outcome →
      Finalizes py order calls c os p := by
  intro h
  obtain ⟨-, s, hs, hstate⟩ := h .sample none approvedCalls _ _ "p" "executor" requestA (.sample none)
    (.returned deepSuccess) (executing_started (by decide +kernel) (by decide +kernel))
  have hrunning : (lastCall .sample none approvedCalls (executing requestA deepSuccess).1
      (executing requestA deepSuccess).2).2.world.state "p" = some .running := by
    decide +kernel
  obtain rfl := Option.some.inj (hrunning.symm.trans hstate)
  exact absurd hs (by decide)

end Rpr
