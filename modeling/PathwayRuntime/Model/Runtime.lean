import PathwayRuntime.Model.Authority
import PathwayRuntime.Model.Database
import PathwayRuntime.Model.Inspection

/-!
# `ResponsibilityPathwayRuntime`

Every method is a program over the atomic operations of `Op`, in the order the source performs
them. The platform `py` and the redaction policy of the runtime are section variables.

* `register`, `transition`, `transitionAsPrincipal`, `execute`, `reconcile`, `evidence`,
  `verifyEvidence`;
* `activeAttempt`: the attempt a running pathway is bound to, read off its log.
-/

set_option autoImplicit false

namespace Rpr

open Resume

/-- A call on the databases. -/
abbrev Db (α : Type) : Type := Prog Op Res PyError α

namespace Db

def getDefinition (pathwayId : String) : Db PathwayDefinition :=
  .call (.getDefinition pathwayId) Prog.ofExcept

def getState (pathwayId : String) : Db PathwayState := .call (.getState pathwayId) Prog.ofExcept

def events (pathwayId : String) : Db (List EvidenceEvent) := .call (.events pathwayId) .ret

def latestEventHash (pathwayId : String) : Db (Option String) :=
  .call (.latestEventHash pathwayId) .ret

def transitionWithEvent (pathwayId : String) (expected target : PathwayState)
    (event : EvidenceEvent) : Db Unit :=
  .call (.transitionWithEvent pathwayId expected target event) Prog.ofExcept

def appendEvent (event : EvidenceEvent) : Db Unit := .call (.appendEvent event) Prog.ofExcept

/-- The update of an outcome; a missing row is a `KeyError`. -/
def finish (attemptId : String) (result : PersistedResult) : Db ExecutionAttemptRecord :=
  .call (.finish attemptId result) fun
    | some record => .ret record
    | none => .raise (.keyError attemptId)

def discardStarted (attemptId : String) : Db Bool := .call (.discardStarted attemptId) .ret

def getAttempt (attemptId : String) : Db ExecutionAttemptRecord :=
  .call (.getAttempt attemptId) Prog.ofExcept

def now : Db String := .call .now .ret

def evaluateRpe (definition : PathwayDefinition) : Db RpeOutcome :=
  .call (.evaluateRpe definition) .ret

def invokeExecutor (pathwayId : String) (request : ExecutionRequest) : Db ExecutorOutcome :=
  .call (.invokeExecutor pathwayId request) .ret

def observe (request : ExecutionRequest) (attempt : ExecutionAttemptRecord) :
    Db ObservationOutcome :=
  .call (.observe request attempt) .ret

end Db

/-! ## Reading the log -/

/-- `payload.get(key)` of an event, when it is a text. -/
def EvidenceEvent.text? (e : EvidenceEvent) (key : String) : Option String :=
  match e.payload.get? key with
  | some (.str (.utf8 s)) => some s
  | _ => none

/-- The attempt a RUNNING-entering event names. -/
def EvidenceEvent.binding (e : EvidenceEvent) : Option String :=
  (if e.eventType = "execution_started" then e.text? "attempt_id"
    else if e.eventType = "pathway_resumed" then e.text? "next_attempt_id" else none).filter
      fun attemptId => !isBlank attemptId

/-- The event enters `RUNNING`. -/
def EvidenceEvent.entersRunning (e : EvidenceEvent) : Bool :=
  e.text? "to" = some PathwayState.running.value

/-- `_active_running_attempt_id`, on a log newest first. -/
def activeAttempt (log : List EvidenceEvent) : Except PyError String :=
  match log.find? EvidenceEvent.entersRunning with
  | none => .error (.runtimeError "running pathway has no durable attempt binding")
  | some e => match e.binding with
    | some attemptId => .ok attemptId
    | none => .error (.runtimeError "running pathway has no durable attempt binding")

/-! ## Decisions -/

/-- The order of severity of decisions. -/
def RuntimeDecision.order : RuntimeDecision → ℕ
  | allow => 0
  | hold => 1
  | humanGate => 2
  | deny => 3

def combine (left right : RuntimeDecision) : RuntimeDecision :=
  if right.order ≤ left.order then left else right

def initialState (decision : RuntimeDecision) (approvalConfigured : Bool) : PathwayState :=
  match decision with
  | .deny => .denied
  | .humanGate => .humanGate
  | .hold => .held
  | .allow => if approvalConfigured then .awaitingApproval else .approved

structure RegistrationResult where
  pathwayId : String
  state : PathwayState
  decision : RuntimeDecision
  reasonCodes : List PyText
  replayed : Bool

structure EvidenceVerificationResult where
  valid : Bool
  eventCount : ℕ
  failureIndex : Option ℕ
  reason : Option String

structure Principal where
  subject : String
  issuer : String
  authenticationMethod : String

/-- What `register` makes of the evaluator's answer: decision, reason codes and raw evidence. -/
def RpeOutcome.read : RpeOutcome → Except PyError (RuntimeDecision × List PyText × PyDict)
  | .returned decision reasonCodes raw => .ok (decision, reasonCodes, raw.getD [])
  | .contractError typeName message =>
    .ok (.hold, ["rpe_contract_error", typeName], [(.str "error", .str message)])
  | .raised typeName => .error (.foreign typeName)

/-- What `execute` makes of the executor's end. -/
def ExecutorOutcome.result : ExecutorOutcome → ExecutionResult
  | .returned result => result
  | .raised typeName => ⟨.writeStatusUnknown, [], none, some (.utf8 ("executor_exception:" ++ typeName))⟩

/-- The members of an event that name the request. -/
def ExecutionRequest.fields (r : ExecutionRequest) : List (String × PyValue) :=
  [("operation_id", .text r.operationId), ("attempt_id", .text r.attemptId),
    ("idempotency_key", .text r.idempotencyKey)]

/-- The members of an event that describe a result. -/
def ExecutionResult.fields (r : ExecutionResult) : List (String × PyValue) :=
  [("status", .text r.status.value), ("evidence", .dict r.evidence),
    ("readback", readbackValue r.readback), ("reason", .optText r.reason)]

/-- The members of a state-changing event. -/
def edgeFields (current target : PathwayState) : List (String × PyValue) :=
  [("from", .text current.value), ("to", .text target.value)]

section Methods

variable (py : Platform) (policy : RedactionPolicy)

/-- `build_event(..., previous_hash=self.store.latest_event_hash(pathway_id))`. -/
def buildEvent (pathwayId eventType actor : String) (payload : List (String × PyValue)) :
    Db EvidenceEvent := do
  let previousHash ← Db.latestEventHash pathwayId
  let safePayload ← Prog.ofExcept (policy.redact py (.ofFields payload))
  let occurredAt ← Db.now
  Prog.ofExcept (sealEvent py pathwayId eventType actor safePayload occurredAt previousHash)

/-- `_record`. -/
def record (pathwayId eventType actor : String) (payload : List (String × PyValue)) : Db Unit := do
  let event ← buildEvent py policy pathwayId eventType actor payload
  Db.appendEvent event

/-- Commit a state change with its event. -/
def commit (pathwayId eventType actor : String) (current target : PathwayState)
    (payload : List (String × PyValue)) : Db Unit := do
  let event ← buildEvent py policy pathwayId eventType actor (edgeFields current target ++ payload)
  Db.transitionWithEvent pathwayId current target event

def createOrReplayPathway (definition : PathwayDefinition) (state : PathwayState) (key : String) :
    Db (Bool × PathwayState) :=
  if isBlank key then .raise (.valueError "idempotency_key is required")
  else match Json.canonical definition.toDict with
    | none => .raise .encodeError
    | some canonical =>
      .call (.createOrReplayPathway definition (py.sha256 canonical) state key) Prog.ofExcept

def register (definition : PathwayDefinition) (key : String) : Db RegistrationResult := do
  let inspection := inspectPathway definition
  let outcome ← Db.evaluateRpe definition
  let (decision, rpeReasonCodes, raw) ← Prog.ofExcept outcome.read
  let combined := combine inspection.decision decision
  let state := initialState combined definition.approvalAuthority.isSome
  let (replayed, persistedState) ← createOrReplayPathway py definition state key
  let reasonCodes := inspection.findings.map (fun f => (f.code : PyText)) ++ rpeReasonCodes
  if !replayed then
    record py policy definition.pathwayId "pathway_registered" definition.decisionOwner
      [("inspection", inspection.toDict),
        ("rpe", .ofFields [("decision", .text decision.value),
          ("reason_codes", .list (rpeReasonCodes.map .str)), ("raw", .dict raw)]),
        ("state", .text persistedState.value), ("idempotency_key", .text key)]
  return ⟨definition.pathwayId, persistedState, combined, reasonCodes, replayed⟩

def transition (pathwayId : String) (target : PathwayState) (actor : String) (reason : PyText) :
    Db PathwayState :=
  if target = .running then
    .raise (.valueError ("RUNNING transitions require an execution or resume attempt binding; " ++
      "use execute() or RepairCoordinator.resume()"))
  else do
    let current ← Db.getState pathwayId
    let definition ← Db.getDefinition pathwayId
    Prog.ofExcept (ensureTransition current target)
    Prog.ofExcept (authorizeTransition definition current target actor)
    commit py policy pathwayId "state_transition" actor current target [("reason", .str reason)]
    return target

/-- `transition_as_principal`, given what the resolver and the actor binding return or raise. -/
def transitionAsPrincipal (pathwayId : String) (target : PathwayState)
    (resolved : Except PyError (Principal × String)) (reason : PyText) : Db PathwayState := do
  let (principal, actor) ← Prog.ofExcept resolved
  let state ← transition py policy pathwayId target actor reason
  record py policy pathwayId "principal_authorized_transition" actor
    [("issuer", .text principal.issuer), ("subject", .text principal.subject),
      ("authentication_method", .text principal.authenticationMethod), ("target", .text target.value)]
  return state

/-- `ledger.begin`. -/
def begin (pathwayId : String) (request : ExecutionRequest) : Db (Bool × ExecutionAttemptRecord) := do
  let fp ← Prog.ofExcept (fingerprint py request)
  .call (.begin pathwayId request fp) Prog.ofExcept

/-- `ledger.finish`. -/
def finish (attemptId : String) (result : ExecutionResult) : Db ExecutionAttemptRecord := do
  let persisted ← Prog.ofExcept (persistResult result)
  Db.finish attemptId persisted

/-- `ledger.mark_result_persistence_unknown`. -/
def markResultPersistenceUnknown (attemptId reason : String) : Db ExecutionAttemptRecord :=
  Db.finish attemptId (unknownResult reason)

def activeRunningAttemptId (pathwayId : String) : Db String := do
  let events ← Db.events pathwayId
  Prog.ofExcept (activeAttempt events.reverse)

/-- `try: finish(...) except AttemptResultPersistenceError`: whether the result was persisted. -/
def tryFinish (attemptId : String) (result : ExecutionResult) : Db Bool :=
  Prog.tryCatch (do
    let _ ← finish attemptId result
    return true) fun e =>
      match e with
      | .attemptResultPersistenceError _ => return false
      | e => .raise e

/-- The fallback of a rejected result, and the type of the error it failed with, if any. -/
def tryMarkUnknown (attemptId reason : String) : Db (Option String) :=
  Prog.tryCatch (do
    let _ ← markResultPersistenceUnknown attemptId reason
    return none) fun e =>
      match e with
      | .keyError _ => return some "KeyError"
      | .integrityError _ => return some "IntegrityError"
      | e => .raise e

/-- The members of the event recorded for a rejected result. -/
def fallbackFields (request : ExecutionRequest) (reason : String) (failure : Option String) :
    List (String × PyValue) :=
  request.fields ++ [("reason", .text reason), ("fallback_persisted", .bool failure.isNone),
    ("fallback_failure", .optText (failure.map .utf8))]

section Execute

variable (pathwayId : String) (request : ExecutionRequest) (actor : String)

def startExecutionPathway : Db Unit := do
  let current ← Db.getState pathwayId
  let definition ← Db.getDefinition pathwayId
  Prog.ofExcept (ensureTransition current .running)
  Prog.ofExcept (authorizeTransition definition current .running actor)
  commit py policy pathwayId "execution_started" actor current .running
    (request.fields ++ [("reason", .text "execution_started")])

/-- The event that closes an unknown write from a persisted result. -/
def closeUnknown (eventType : String) (current target : PathwayState) (result : ExecutionResult)
    (more : List (String × PyValue)) : Db Unit := do
  Prog.ofExcept (ensureTransition current target)
  commit py policy pathwayId eventType actor current target
    (request.fields ++ result.fields ++ more)

/-- Where a final result leads, and with which reason. -/
def ExecutionResult.finalTarget (r : ExecutionResult) : Option (PathwayState × PyText) :=
  if r.status = .succeeded ∧ r.verified then some (.completed, "executor_readback_verified")
  else if r.status = .failed then some (.repairRequired, PyText.orElse r.reason "executor_failed")
  else none

def finishExecutionPathway (result : ExecutionResult) : Db Unit := do
  let current ← Db.getState pathwayId
  match result.finalTarget with
  | none =>
    if current = .writeStatusUnknown then return ()
    else
      let _ ← transition py policy pathwayId .writeStatusUnknown actor
        (PyText.orElse result.reason "executor_write_status_unknown")
  | some (target, reason) =>
    let transitionActor ← if result.status = .failed then
        (do return (← Db.getDefinition pathwayId).repairOwner)
      else pure actor
    if current = target then return ()
    else if current = .running then
      let _ ← transition py policy pathwayId target transitionActor reason
    else if current ≠ .writeStatusUnknown then
      Prog.raise (.valueError
        ("persisted execution result conflicts with pathway state " ++ current.value))
    else
      closeUnknown py policy pathwayId request actor "execution_result_after_concurrent_unknown"
        current target result []

/-- The block that must leave the pathway `RUNNING`, with its handler. -/
def enterRunning : Db Unit :=
  Prog.tryCatch (do
    let current ← Db.getState pathwayId
    if current = .approved then startExecutionPathway py policy pathwayId request actor
    else if current ≠ .running then
      Prog.raise (.valueError ("pathway must be approved or running, got " ++ current.value))) fun e => do
    let persistedState ← Db.getState pathwayId
    if persistedState ≠ .running then
      let _ ← Db.discardStarted request.attemptId
    Prog.raise e

/-- A result the ledger rejected. -/
def persistenceUnknown : Db ExecutionResult := do
  let reason := "result_persistence_rejected:AttemptResultPersistenceError"
  let failure ← tryMarkUnknown request.attemptId reason
  let uncertainReason := match failure with
    | none => reason
    | some name => PyText.utf8 (reason ++ ":fallback_persistence_failed:" ++ name)
  record py policy pathwayId "execution_result_persistence_unknown" actor
    (fallbackFields request reason failure)
  let _ ← transition py policy pathwayId .writeStatusUnknown actor uncertainReason
  return ⟨.writeStatusUnknown, [], none, some uncertainReason⟩

/-- The rest of `execute` once the attempt has a fresh row. -/
def dispatch : Db ExecutionResult := do
  enterRunning py policy pathwayId request actor
  let outcome ← Db.invokeExecutor pathwayId request
  let result := outcome.result
  if ← tryFinish request.attemptId result then
    record py policy pathwayId "execution_result" actor (request.fields ++ result.fields)
    finishExecutionPathway py policy pathwayId request actor result
    return result
  else
    persistenceUnknown py policy pathwayId request actor

/-- A started row found on an `APPROVED` pathway: it was never dispatched. -/
def restartAttempt : Db Unit := do
  if !(← Db.discardStarted request.attemptId) then
    Prog.raise (.runtimeError "pre_dispatch_started_attempt_could_not_be_reset")
  else
    let (replayed, _) ← begin py pathwayId request
    if replayed then Prog.raise (.runtimeError "pre_dispatch_started_attempt_reset_replayed")
    else
      record py policy pathwayId "execution_pre_dispatch_restart_recovered" actor request.fields

/-- A started row found on a pathway that is not `APPROVED`. -/
def replayUnresolved (current : PathwayState) : Db ExecutionResult := do
  let reason := "prior_attempt_started_without_persisted_result"
  if current = .running then
    let _ ← transition py policy pathwayId .writeStatusUnknown actor reason
  record py policy pathwayId "execution_replay_unresolved" actor
    (request.fields ++ [("pathway_state", .text current.value)])
  return ⟨.writeStatusUnknown, [], none, some reason⟩

/-- A running pathway only accepts the attempt it is bound to. -/
def admitExecution : Db Unit := do
  let definition ← Db.getDefinition pathwayId
  Prog.ofExcept (authorizeExecutionAccess definition actor)
  let currentBeforeBegin ← Db.getState pathwayId
  if currentBeforeBegin = .running then
    let bound ← activeRunningAttemptId pathwayId
    if bound ≠ request.attemptId then
      Prog.raise (.valueError ("running pathway is bound to attempt " ++ pyRepr bound ++ ", got " ++
        pyRepr request.attemptId))

def execute : Db ExecutionResult := do
  admitExecution pathwayId request actor
  let (replayed, attempt) ← begin py pathwayId request
  if !replayed then dispatch py policy pathwayId request actor
  else match attempt.outcome with
    | some stored =>
      let result ← Prog.ofExcept (resultFromAttempt stored.json)
      finishExecutionPathway py policy pathwayId request actor result
      return result
    | none =>
      let current ← Db.getState pathwayId
      if current = .approved then
        restartAttempt py policy pathwayId request actor
        dispatch py policy pathwayId request actor
      else replayUnresolved py policy pathwayId request actor current

end Execute

section Reconcile

variable (pathwayId : String) (request : ExecutionRequest) (actor : String)

def finishReconciliationPathway (result : ExecutionResult) (replayed : Bool) : Db Unit := do
  let current ← Db.getState pathwayId
  let target : PathwayState := if result.status = .succeeded then .completed else .repairRequired
  if current = target then return ()
  else if current ≠ .writeStatusUnknown then
    Prog.raise (.valueError
      ("persisted reconciliation result conflicts with pathway state " ++ current.value))
  else
    closeUnknown py policy pathwayId request actor "reconciliation_result" current target result
      [("replayed", .bool replayed)]

def persistReconciliationResult (result : ExecutionResult) : Db Bool := do
  if ← tryFinish request.attemptId result then return true
  else
    let reason := "reconciliation_result_persistence_rejected:AttemptResultPersistenceError"
    let failure ← tryMarkUnknown request.attemptId reason
    record py policy pathwayId "reconciliation_result_persistence_unknown" actor
      (fallbackFields request reason failure)
    return false

/-- The result a reconciliation observation stands for. -/
def ReconciliationResult.result (o : ReconciliationResult) : ExecutionResult :=
  let evidence : PyDict := [(.str "reconciliation", .dict o.evidence)]
  match o.status with
  | .verifiedApplied => ⟨.succeeded, evidence, some ⟨true, o.evidence, o.reason⟩, o.reason⟩
  | .verifiedNotApplied => ⟨.failed, evidence, some ⟨true, o.evidence, o.reason⟩,
      some (PyText.orElse o.reason "verified_not_applied")⟩
  | .unresolved => ⟨.writeStatusUnknown, evidence, some ⟨false, o.evidence, o.reason⟩,
      some (PyText.orElse o.reason "reconciliation_unresolved")⟩

/-- The states an uncertain execution can be reconciled in. -/
def reconcilableStates : List PathwayState := [.writeStatusUnknown, .completed, .repairRequired]

def admitReconciliation : Db Unit := do
  let definition ← Db.getDefinition pathwayId
  Prog.ofExcept (authorizeReconciliationAccess definition actor)
  let current ← Db.getState pathwayId
  if current ∉ reconcilableStates then
    Prog.raise (.valueError ("pathway is not reconcilable, got " ++ current.value))

/-- The final result already stored for an attempt, if any. -/
def persistedFinal (attempt : ExecutionAttemptRecord) : Except PyError (Option ExecutionResult) :=
  match attempt.outcome with
  | none => .ok none
  | some stored => do
    let persisted ← resultFromAttempt stored.json
    .ok (if persisted.status ≠ .writeStatusUnknown then some persisted else none)

/-- Observe the uncertain attempt and classify it. -/
def classify (attempt : ExecutionAttemptRecord) : Db ExecutionResult := do
  match ← Db.observe request attempt with
  | .raised typeName => Prog.raise (.foreign typeName)
  | .returned observed =>
    let result := observed.result
    if observed.status = .unresolved then
      record py policy pathwayId "reconciliation_unresolved" actor
        (request.fields ++ [("evidence", .dict observed.evidence), ("reason", .optText result.reason)])
      return result
    else if ← persistReconciliationResult py policy pathwayId request actor result then
      finishReconciliationPathway py policy pathwayId request actor result false
      return result
    else
      return ⟨.writeStatusUnknown, [], none,
        some "reconciliation_result_persistence_rejected:AttemptResultPersistenceError"⟩

def reconcile : Db ExecutionResult := do
  admitReconciliation pathwayId actor
  let (replayed, attempt) ← begin py pathwayId request
  if !replayed then
    let _ ← Db.discardStarted request.attemptId
    Prog.raise (.valueError "reconciliation requires an existing persisted attempt")
  else match ← Prog.ofExcept (persistedFinal attempt) with
    | some persisted =>
      finishReconciliationPathway py policy pathwayId request actor persisted true
      return persisted
    | none => classify py policy pathwayId request actor attempt

end Reconcile

/-- `evidence`: the events in the order they were stored. -/
def evidence (pathwayId : String) : Db (List EvidenceEvent) := Db.events pathwayId

def verifyEvidence (pathwayId : String) : Db EvidenceVerificationResult := do
  let events ← Db.events pathwayId
  let (valid, index, reason) := verifyChain py events
  return ⟨valid, events.length, index, reason⟩

def markWriteUnknown (pathwayId actor : String) (reason : PyText) : Db PathwayState :=
  transition py policy pathwayId .writeStatusUnknown actor reason

def requireRepair (pathwayId actor : String) (reason : PyText) : Db PathwayState :=
  transition py policy pathwayId .repairRequired actor reason

end Methods

end Rpr
