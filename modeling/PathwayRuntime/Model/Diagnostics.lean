import PathwayRuntime.Model.Runtime

/-!
# Diagnostics

* `activeAttemptId`: the attempt a running pathway is bound to, as the diagnostics read it.
* `nextStep`: who has to act next.
* `diagnosePathway`: the hand-over of a stored pathway.
-/

set_option autoImplicit false

namespace Rpr

open Resume

structure PathwayDiagnostic where
  pathwayId : String
  state : PathwayState
  nextRequiredAuthority : Option String
  nextRequiredAction : String
  activeAttemptId : Option String
  latestEventType : Option String
  evidenceValid : Bool
  evidenceEventCount : ℕ

/-- The loop of `_active_attempt_id`, over events newest first. -/
def scanAttempt : List EvidenceEvent → Option String
  | [] => none
  | event :: older =>
    if event.text? "to" ≠ some PathwayState.running.value then scanAttempt older
    else
      let candidate :=
        if event.eventType = "execution_started" then event.text? "attempt_id"
        else if event.eventType = "pathway_resumed" then event.text? "next_attempt_id"
        else none
      candidate.filter fun attemptId => !isBlank attemptId

/-- `_active_attempt_id`. -/
def activeAttemptId (events : List EvidenceEvent) (state : PathwayState) : Option String :=
  if state ≠ .running then none else scanAttempt events.reverse

/-- `_next_step`. -/
def nextStep (definition : PathwayDefinition) : PathwayState → Option String × String
  | .proposed => (some definition.decisionOwner, "review_pathway_definition")
  | .awaitingApproval => (definition.approvalAuthority, "approve_or_deny")
  | .approved => (some definition.executionActor, "execute_bounded_action")
  | .running => (some definition.executionActor, "monitor_active_attempt")
  | .held => (some definition.stopAuthority, "review_hold_condition")
  | .humanGate =>
    (match definition.approvalAuthority with
      | some authority => some (if authority = "" then definition.decisionOwner else authority)
      | none => some definition.decisionOwner, "perform_human_review")
  | .stopped => (some definition.stopAuthority, "assess_stopped_pathway")
  | .partiallyCompleted => (some definition.residualOwner, "assess_residual_impacts")
  | .writeStatusUnknown => (some definition.evidenceOwner, "reconcile_write_status")
  | .repairRequired => (some definition.repairOwner, "repair_failed_attempt")
  | .readyToResume => (some definition.resumeAuthority, "authorize_resume")
  | .completed => (some definition.evidenceOwner, "verify_completion_evidence")
  | .denied => (some definition.decisionOwner, "review_denial")
  | .aborted => (some definition.residualOwner, "manage_residual_impacts")

/-- `diagnose_pathway`. -/
def diagnosePathway (py : Platform) (pathwayId : String) : Db PathwayDiagnostic := do
  let state ← Db.getState pathwayId
  let definition ← Db.getDefinition pathwayId
  let events ← evidence pathwayId
  let verification ← verifyEvidence py pathwayId
  let (authority, action) := nextStep definition state
  return {
    pathwayId := pathwayId
    state := state
    nextRequiredAuthority := authority
    nextRequiredAction := action
    activeAttemptId := activeAttemptId events state
    latestEventType := events.getLast?.map EvidenceEvent.eventType
    evidenceValid := verification.valid
    evidenceEventCount := verification.eventCount }

/-- **Both scanners read one attempt off a log.** -/
theorem scanAttempt_eq (log : List EvidenceEvent) : scanAttempt log = (activeAttempt log).toOption := by
  induction log with
  | nil => rfl
  | cons e older ih =>
    rw [scanAttempt]
    by_cases hto : e.text? "to" = some PathwayState.running.value
    · have henters : e.entersRunning = true := decide_eq_true hto
      rw [if_neg (not_not.mpr hto), activeAttempt, List.find?_cons_of_pos henters]
      show e.binding = _
      dsimp only
      cases h : e.binding <;> rfl
    · have henters : ¬ e.entersRunning = true := fun h => hto (of_decide_eq_true h)
      rw [if_pos hto, ih, activeAttempt, activeAttempt, List.find?_cons_of_neg henters]

end Rpr
