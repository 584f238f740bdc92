import PathwayRuntime.Model.System

/-!
# `RprToolBoundary`

* `ExecutionRequest.make`: a request, or what is missing.
* `invoke`: the execution behind a tool call, and the outcome the agent framework sees.
* `AgentCall`, `agentSequential`: calls of the runtime, the repair coordinator and the tool boundary,
  made one after another; `agentLast`: one more.
-/

set_option autoImplicit false

namespace Rpr

open Resume

/-- `ExecutionRequest(...)`. -/
def ExecutionRequest.make (operationId attemptId idempotencyKey action : String) (parameters : PyDict) :
    Except PyError ExecutionRequest :=
  if ho : isBlank operationId then .error (.valueError "operation_id is required")
  else if ha : isBlank attemptId then .error (.valueError "attempt_id is required")
  else if hk : isBlank idempotencyKey then .error (.valueError "idempotency_key is required")
  else if hn : isBlank action then .error (.valueError "action is required")
  else .ok
    { operationId, attemptId, idempotencyKey, action, parameters
      operationId_required := by simpa using ho
      attemptId_required := by simpa using ha
      idempotencyKey_required := by simpa using hk
      action_required := by simpa using hn }

structure AgentToolCall where
  toolName : String
  arguments : PyDict
  callId : String

structure AgentToolOutcome where
  allowed : Bool
  pathwayId : String
  state : String
  output : PyValue
  reason : Option PyText

/-- The request of a tool call. -/
def AgentToolCall.request (call : AgentToolCall) : Except PyError ExecutionRequest :=
  ExecutionRequest.make call.callId call.callId call.callId call.toolName call.arguments

/-- The `output` of an outcome. -/
def ExecutionResult.output (r : ExecutionResult) : PyValue :=
  .ofFields [("status", .text r.status.value), ("evidence", .dict r.evidence),
    ("readback", readbackValue r.readback)]

/-- `RprToolBoundary.invoke`. `executorFor` raises when the application has no executor for a tool. -/
def invoke (py : Platform) (policy : RedactionPolicy) (executorFor : String → Except PyError Unit)
    (pathwayId actor : String) (call : AgentToolCall) : Db AgentToolOutcome := do
  let request ← Prog.ofExcept call.request
  Prog.ofExcept (executorFor call.toolName)
  let result ← execute py policy pathwayId request actor
  let state ← Db.getState pathwayId
  return { allowed := result.status.value == "succeeded"
           pathwayId := pathwayId
           state := state.value
           output := result.output
           reason := result.reason }

/-! ## Calls -/

/-- A call of the runtime or the repair coordinator, or of a tool boundary. -/
inductive AgentCall : Type
  | direct (call : Call)
  | tool (policy : RedactionPolicy) (executorFor : String → Except PyError Unit)
      (pathwayId actor : String) (call : AgentToolCall)

inductive AgentResult : Type
  | direct (r : CallResult)
  | tool (r : AgentToolOutcome)

def AgentCall.body (py : Platform) : AgentCall → Db AgentResult
  | .direct c => do return .direct (← c.body py)
  | .tool policy executorFor p actor call => do
    return .tool (← invoke py policy executorFor p actor call)

section Run

variable (py : Platform) (order : Option RowOrder) (calls : List (AgentCall × List Oracle))

/-- Calls made one after another from empty databases, with crashes. -/
def agentSequential : Hist AgentCall World Step :=
  (database py order).sessions (AgentCall.body py) 0 calls ⟨World.empty, []⟩

/-- One more call after the others: how it ends, and the history it leaves. -/
def agentLast (c : AgentCall) (os : List Oracle) :
    Outcome PyError AgentResult × Hist AgentCall World Step :=
  (database py order).run calls.length c (c.body py) os (agentSequential py order calls)

end Run

/-- The call reports success for a pathway: `execute` returned `SUCCEEDED`, or the tool call is
allowed. -/
inductive ReportsSuccess (p : String) : AgentCall → AgentResult → Prop
  | execute {policy : RedactionPolicy} {request : ExecutionRequest} {actor : String}
      {r : ExecutionResult} (hs : r.status = .succeeded) :
      ReportsSuccess p (.direct ⟨policy, .execute p request actor⟩) (.direct (.executed r))
  | invoke {policy : RedactionPolicy} {executorFor : String → Except PyError Unit} {actor : String}
      {call : AgentToolCall} {outcome : AgentToolOutcome} (hs : outcome.allowed = true) :
      ReportsSuccess p (.tool policy executorFor p actor call) (.tool outcome)

end Rpr
