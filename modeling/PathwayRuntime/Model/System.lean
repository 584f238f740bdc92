import PathwayRuntime.Model.Runtime

/-!
# `RepairCoordinator` and the calls of the system

* `completeRepair`, `resume`, `abortWithResiduals`.
* `Call`: a call of a runtime or of a repair coordinator, with the redaction policy of its runtime;
  `Call.body`: its program.
* `sequential`, `interleaved`: the histories of calls made one after another, and of calls
  interleaved operation by operation; `completed`: none of the calls crashes.
* `lastCall`, `lastSteps`: one more call after the others.
-/

set_option autoImplicit false

namespace Rpr

open Resume

structure CompensationRecord where
  action : String
  authority : String
  outcome : String
  evidence : PyDict

/-- `None`, or the checked dict of a compensation. -/
def compensationValue : Option CompensationRecord → Except PyError PyValue
  | none => .ok .none
  | some c =>
    if isBlank c.action ∨ isBlank c.authority ∨ isBlank c.outcome then
      .error (.valueError "compensation action, authority, and outcome are required")
    else .ok (.ofFields [("action", .text c.action), ("authority", .text c.authority),
      ("outcome", .text c.outcome), ("evidence", .dict c.evidence)])

/-- The attempt named by the newest `repair_completed` event of a log, newest first. -/
def latestRepair (log : List EvidenceEvent) : Option String :=
  (log.find? fun e => e.eventType = "repair_completed").bind fun e => e.text? "prior_attempt_id"

section Methods

variable (py : Platform) (policy : RedactionPolicy) (pathwayId actor : String)

/-- The prior attempt must be a finished, failed attempt of this pathway. -/
def requireFailedAttempt (priorAttemptId message : String) : Db Unit := do
  let priorAttempt ← Db.getAttempt priorAttemptId
  if priorAttempt.pathwayId ≠ pathwayId ∨ priorAttempt.outcome.isNone then
    Prog.raise (.valueError "prior attempt is not a finished attempt for this pathway")
  else if priorAttempt.status ≠ ExecutionStatus.failed.value then
    Prog.raise (.valueError message)

def completeRepair (priorAttemptId : String) (repairEvidence : PyDict) (reason : PyText)
    (compensation : Option CompensationRecord) : Db PathwayState :=
  if isBlank priorAttemptId then .raise (.valueError "prior_attempt_id is required")
  else if repairEvidence.isEmpty then
    .raise (.valueError "repair_evidence is required before ready_to_resume")
  else do
    requireFailedAttempt pathwayId priorAttemptId "repair requires a failed prior attempt"
    let current ← Db.getState pathwayId
    let definition ← Db.getDefinition pathwayId
    Prog.ofExcept (ensureTransition current .readyToResume)
    Prog.ofExcept (authorizeTransition definition current .readyToResume actor)
    let compensation ← Prog.ofExcept (compensationValue compensation)
    commit py policy pathwayId "repair_completed" actor current .readyToResume
      [("prior_attempt_id", .text priorAttemptId), ("repair_evidence", .dict repairEvidence),
        ("compensation", compensation), ("reason", .str reason)]
    return .readyToResume

/-- The attempt identity must be unused. -/
def requireNewAttempt (attemptId : String) : Db Unit := do
  let found ← Prog.tryCatch (do
      let _ ← Db.getAttempt attemptId
      return true) fun e =>
    match e with
    | .keyError _ => return false
    | e => .raise e
  if found then Prog.raise (.valueError "next attempt identity already exists")

def resume (priorAttemptId nextAttemptId : String) (reason : PyText) : Db PathwayState :=
  if isBlank priorAttemptId ∨ isBlank nextAttemptId then
    .raise (.valueError "prior_attempt_id and next_attempt_id are required")
  else if priorAttemptId = nextAttemptId then
    .raise (.valueError "resume requires a new attempt identity")
  else do
    requireFailedAttempt pathwayId priorAttemptId "resume requires a failed prior attempt"
    requireNewAttempt nextAttemptId
    let events ← Db.events pathwayId
    if latestRepair events.reverse ≠ some priorAttemptId then
      Prog.raise (.valueError "resume prior_attempt_id must match the latest completed repair")
    else do
      let current ← Db.getState pathwayId
      let definition ← Db.getDefinition pathwayId
      Prog.ofExcept (ensureTransition current .running)
      Prog.ofExcept (authorizeTransition definition current .running actor)
      commit py policy pathwayId "pathway_resumed" actor current .running
        [("prior_attempt_id", .text priorAttemptId), ("next_attempt_id", .text nextAttemptId),
          ("reason", .str reason)]
      return .running

def abortWithResiduals (residuals : PyDict) (reason : PyText) : Db PathwayState :=
  if residuals.isEmpty then .raise (.valueError "residuals are required for residual closure")
  else do
    let current ← Db.getState pathwayId
    let definition ← Db.getDefinition pathwayId
    Prog.ofExcept (ensureTransition current .aborted)
    if isBlank actor ∨ actor ≠ definition.residualOwner then
      Prog.raise (.authorityError "actor lacks residual_owner")
    else do
      commit py policy pathwayId "residual_closure" actor current .aborted
        [("residual_owner", .text definition.residualOwner), ("residuals", .dict residuals),
          ("reason", .str reason)]
      return .aborted

end Methods

/-! ## Calls -/

/-- The public methods of `ResponsibilityPathwayRuntime` and `RepairCoordinator`. -/
inductive Method : Type
  | register (definition : PathwayDefinition) (key : String)
  | transition (pathwayId : String) (target : PathwayState) (actor : String) (reason : PyText)
  | transitionAsPrincipal (pathwayId : String) (target : PathwayState)
      (resolved : Except PyError (Principal × String)) (reason : PyText)
  | markWriteUnknown (pathwayId actor : String) (reason : PyText)
  | requireRepair (pathwayId actor : String) (reason : PyText)
  | execute (pathwayId : String) (request : ExecutionRequest) (actor : String)
  | reconcile (pathwayId : String) (request : ExecutionRequest) (actor : String)
  | evidence (pathwayId : String)
  | verifyEvidence (pathwayId : String)
  | completeRepair (pathwayId actor priorAttemptId : String) (repairEvidence : PyDict)
      (reason : PyText) (compensation : Option CompensationRecord)
  | resume (pathwayId actor priorAttemptId nextAttemptId : String) (reason : PyText)
  | abortWithResiduals (pathwayId actor : String) (residuals : PyDict) (reason : PyText)

/-- The pathway a method is called for. -/
def Method.pathwayId : Method → String
  | .register d _ => d.pathwayId
  | .transition p .. | .transitionAsPrincipal p .. | .markWriteUnknown p .. | .requireRepair p ..
  | .execute p .. | .reconcile p .. | .evidence p | .verifyEvidence p | .completeRepair p ..
  | .resume p .. | .abortWithResiduals p .. => p

/-- A method called on a runtime with this redaction policy. -/
structure Call where
  policy : RedactionPolicy
  method : Method

/-- What a call returns. -/
inductive CallResult : Type
  | registered (r : RegistrationResult)
  | state (s : PathwayState)
  | executed (r : ExecutionResult)
  | events (es : List EvidenceEvent)
  | verified (r : EvidenceVerificationResult)

def Call.body (py : Platform) (c : Call) : Db CallResult :=
  match c.method with
  | .register d key => do return .registered (← Rpr.register py c.policy d key)
  | .transition p target actor reason => do
    return .state (← Rpr.transition py c.policy p target actor reason)
  | .transitionAsPrincipal p target resolved reason => do
    return .state (← Rpr.transitionAsPrincipal py c.policy p target resolved reason)
  | .markWriteUnknown p actor reason => do
    return .state (← Rpr.markWriteUnknown py c.policy p actor reason)
  | .requireRepair p actor reason => do
    return .state (← Rpr.requireRepair py c.policy p actor reason)
  | .execute p request actor => do
    return .executed (← Rpr.execute py c.policy p request actor)
  | .reconcile p request actor => do
    return .executed (← Rpr.reconcile py c.policy p request actor)
  | .evidence p => do return .events (← Rpr.evidence p)
  | .verifyEvidence p => do return .verified (← Rpr.verifyEvidence py p)
  | .completeRepair p actor prior evidence reason compensation => do
    return .state (← Rpr.completeRepair py c.policy p actor prior evidence reason compensation)
  | .resume p actor prior next reason => do
    return .state (← Rpr.resume py c.policy p actor prior next reason)
  | .abortWithResiduals p actor residuals reason => do
    return .state (← Rpr.abortWithResiduals py c.policy p actor residuals reason)

/-! ## Histories -/

abbrev Record : Type := Entry Call World Step

abbrev History : Type := Hist Call World Step

/-- Nothing stored, nothing called. -/
def History.start : History := ⟨World.empty, []⟩

/-- Calls made one after another from empty databases, each with what the environment decides at
its operations. A call whose list ends before its program does has crashed there. -/
def sequential (py : Platform) (order : Option RowOrder) (calls : List (Call × List Oracle)) :
    History :=
  (database py order).sessions (Call.body py) 0 calls History.start

/-- One more call after the others: how it ends, and the history it leaves. -/
def lastCall (py : Platform) (order : Option RowOrder) (calls : List (Call × List Oracle)) (c : Call)
    (os : List Oracle) : Outcome PyError CallResult × History :=
  (database py order).run calls.length c (c.body py) os (sequential py order calls)

/-- The steps of that call, newest first. -/
def lastSteps (py : Platform) (order : Option RowOrder) (calls : List (Call × List Oracle)) (c : Call)
    (os : List Oracle) : List Step :=
  own calls.length (lastCall py order calls c os).2.trace

/-- None of the calls crashes. -/
def completed (py : Platform) (order : Option RowOrder) (calls : List (Call × List Oracle)) : Bool :=
  (database py order).completes (Call.body py) 0 calls History.start

/-- Calls interleaved operation by operation, after some calls made one after another. -/
def interleaved (py : Platform) (order : Option RowOrder) (calls : List (Call × List Oracle))
    (acts : List (Machine.Action Call Oracle)) : History :=
  ((database py order).schedule (Call.body py)
    (.idle (sequential py order calls) calls.length) acts).hist

theorem interleaved_nil (py : Platform) (order : Option RowOrder) (calls : List (Call × List Oracle)) :
    interleaved py order calls [] = sequential py order calls := rfl

/-! ## A small instance

A platform and a pathway on which histories can be computed. -/

/-- A platform with a polynomial digest. -/
def Platform.sample : Platform where
  sha256 text := toString (text.foldl (fun h c => (h * 131 + c.toNat) % 4294967291) 7)
  casefold s := s
  str
    | .str (.utf8 s) => s
    | _ => ""
  casefold_lower _ _ := rfl
  str_text _ := rfl

/-- A pathway with a holder for every role. -/
def PathwayDefinition.sample (approvalAuthority : Option String) : PathwayDefinition where
  pathwayId := "p"
  actionName := "write"
  actionClass := .observeOnly
  environmentTrust := .trustedInternal
  decisionOwner := "owner"
  approvalAuthority := approvalAuthority
  executionActor := "executor"
  stopAuthority := "stopper"
  evidenceOwner := "auditor"
  repairOwner := "repairer"
  resumeAuthority := "resumer"
  humanReturnPoint := "desk"
  residualOwner := "residual"
  metadata := []
  responsibilityRoute := none

/-- A request for the attempt `x` under the key `x ++ "-key"`. -/
def ExecutionRequest.sample (x : String) (h : isBlank x = false) (hkey : isBlank (x ++ "-key") = false) :
    ExecutionRequest where
  operationId := "op"
  attemptId := x
  idempotencyKey := x ++ "-key"
  action := "write"
  parameters := []
  operationId_required := by decide
  attemptId_required := h
  idempotencyKey_required := hkey
  action_required := by decide

/-- A call on a runtime with the default policy, in a constant environment that answers every
operation of the call. -/
def Method.answered (m : Method) (o : Oracle) : Call × List Oracle :=
  (⟨.default, m⟩, List.replicate 40 o)

/-- Requests for three attempts. -/
def requestA : ExecutionRequest := .sample "a" (by decide) (by decide)

def requestB : ExecutionRequest := .sample "b" (by decide) (by decide)

def requestC : ExecutionRequest := .sample "c" (by decide) (by decide)

/-- An execution whose executor returns this result. -/
def executing (request : ExecutionRequest) (result : ExecutionResult) : Call × List Oracle :=
  (Method.execute "p" request "executor").answered { executor := .returned result }

/-- A reconciliation whose strategy observes this. -/
def observing (request : ExecutionRequest) (observed : ReconciliationResult) : Call × List Oracle :=
  (Method.reconcile "p" request "auditor").answered { observation := .returned observed }

def repairing (prior : String) : Call × List Oracle :=
  (Method.completeRepair "p" "repairer" prior [(.str "note", .text "fixed")] "fixed" none).answered {}

def resuming (prior next : String) : Call × List Oracle :=
  (Method.resume "p" "resumer" prior next "again").answered {}

/-- The attempt `a` of an approved pathway fails and is repaired; `b` is to follow. -/
def failedRepaired : List (Call × List Oracle) :=
  [(Method.register (.sample none) "reg").answered {}, executing requestA ⟨.failed, [], none, none⟩,
    repairing "a", resuming "a" "b"]

/-- An approved pathway. -/
def approvedCalls : List (Call × List Oracle) := [(Method.register (.sample none) "reg").answered {}]

/-- The attempt `a` of an approved pathway ends unknown: its executor raises. -/
def unknownCalls : List (Call × List Oracle) :=
  approvedCalls ++ [(Method.execute "p" requestA "executor").answered {}]

/-- Lists in lists. -/
def nested : ℕ → PyValue
  | 0 => .none
  | n + 1 => .list [nested n]

/-- Evidence the ledger stores and the evidence log rejects. -/
def deepEvidence : PyDict := [(.str "trace", nested 20)]

/-- A registered pathway on its way to approval. -/
def approvalCalls : List (Call × List Oracle) :=
  [(Method.register (.sample (some "approver")) "reg").answered {},
    (Method.transition "p" .approved "approver" "ok").answered {}]

/-- A pathway that awaits its approval. -/
def awaitingCalls : List (Call × List Oracle) :=
  [(Method.register (.sample (some "approver")) "reg").answered {}]

/-- Two calls in turn, an operation each. -/
def inTurn (t u : ℕ) : ℕ → List (Machine.Action Call Oracle)
  | 0 => []
  | n + 1 => .step t {} :: .step u {} :: inTurn t u n

/-- Two approvals of that pathway, in turn: both read it as awaiting, and one of them commits. -/
def approvalRace : List (Machine.Action Call Oracle) :=
  .invoke ⟨.default, .transition "p" .approved "approver" "ok"⟩ ::
    .invoke ⟨.default, .transition "p" .approved "approver" "go"⟩ :: inTurn 1 2 6

end Rpr
