import PathwayRuntime.Model.Admission
import PathwayRuntime.Model.Session

/-!
# The MCP tool executor

* `McpStableTransport`: what a tool call is sent through; `McpJsonRpcSession.asTransport`.
* `Observation`: what a readback observer returns or raises.
* `McpStableToolExecutor.execute`, in parts: `unanswered` after an exception of the transport,
  `classify` after a result.
-/

set_option autoImplicit false

namespace Rpr

/-- A transport with states `τ`: its `request` may return any object. -/
structure McpStableTransport (τ : Type) where
  request : PyText → PyDict → τ → Except PyException PyValue × τ

/-- A session as the executor sees it. -/
def McpJsonRpcSession.asTransport {κ : Type} (objects : PyObjects) (channel : McpJsonRpcChannel κ) :
    McpStableTransport (McpJsonRpcSession κ) where
  request method params s :=
    let r := McpJsonRpcSession.request objects channel method (.dict params) s
    (r.returned.map PyValue.dict, r.session)

/-- What `observe` does: it returns evidence, or something else, or raises. -/
inductive Observation : Type
  | evidence (readback : ReadbackEvidence)
  | invalid
  | raised (e : PyException)

structure McpStableToolExecutor (τ : Type) where
  transport : McpStableTransport τ
  readbackObserver : Option (ExecutionRequest → PyDict → Observation)
  requireReadback : Bool

/-- `type(value).__name__`. -/
def PyValue.typeName : PyValue → String
  | .none => "NoneType"
  | .bool _ => "bool"
  | .int _ => "int"
  | .float _ => "float"
  | .str _ => "str"
  | .list _ => "list"
  | .tuple _ => "tuple"
  | .dict _ => "dict"
  | .object typeName _ => typeName

namespace McpStableToolExecutor

/-- `{"dispatch_state": ...}`, with more fields. -/
def dispatched (state : String) (more : PyDict) : PyDict := (.str "dispatch_state", .text state) :: more

/-- A result without a readback. -/
def result (status : ExecutionStatus) (evidence : PyDict) (reason : PyText) : ExecutionResult :=
  ⟨status, evidence, none, some reason⟩

/-- The exceptions of `tools/call` after which the outcome is unknown. -/
def outcomeUnknown : List String :=
  ["McpToolCallOutcomeUnknownError", "TimeoutError", "ConnectionError", "OSError"]

/-- The `except` clauses of `tools/call`. -/
def unanswered (e : PyException) : Except PyException ExecutionResult :=
  if e.isA "McpToolCallNotSentError" then .ok (result .failed (dispatched "not_sent" []) e.describe)
  else if e.isAny outcomeUnknown then
    .ok (result .writeStatusUnknown (dispatched "possibly_sent" []) e.describe)
  else if e.isA "McpTransportError" then
    .ok (result .writeStatusUnknown (dispatched "unknown" []) e.describe)
  else .error e

/-- The exceptions of the observer that are caught. -/
def observerErrors : List String := ["TimeoutError", "ConnectionError", "OSError", "ValueError", "TypeError"]

/-- What the observation of a tool result leads to. -/
def observed (toolResult : PyDict) : Observation → Except PyException ExecutionResult
  | .raised e =>
    if e.isAny observerErrors then
      .ok (result .writeStatusUnknown (dispatched "sent" [(.str "tool_result", .dict toolResult)])
        (PyText.utf8 "readback_failed: " ++ e.describe))
    else .error e
  | .invalid =>
    .ok (result .writeStatusUnknown (dispatched "sent" [(.str "tool_result", .dict toolResult)])
      "readback_observer_returned_invalid_evidence")
  | .evidence readback =>
    .ok ⟨if readback.verified then .succeeded else .writeStatusUnknown,
      dispatched "sent" [(.str "tool_result", .dict toolResult)], some readback,
      if readback.verified then none else some (PyText.orElse readback.reason "readback_not_verified")⟩

variable {τ : Type} (x : McpStableToolExecutor τ)

/-- What a tool result leads to. -/
def classifyResult (request : ExecutionRequest) (toolResult : PyDict) : Except PyException ExecutionResult :=
  match toolResult.get? "isError" with
  | some (.bool true) =>
    .ok (result .failed (dispatched "sent" [(.str "tool_result", .dict toolResult)]) "mcp_tool_error")
  | _ =>
    if x.requireReadback = false then
      .ok ⟨.succeeded, dispatched "sent" [(.str "tool_result", .dict toolResult)], none, none⟩
    else
      match x.readbackObserver with
      | none =>
        .ok (result .writeStatusUnknown (dispatched "sent" [(.str "tool_result", .dict toolResult)])
          "independent_readback_required")
      | some observe => observed toolResult (observe request toolResult)

/-- What `tools/call` returned leads to. -/
def classify (request : ExecutionRequest) : PyValue → Except PyException ExecutionResult
  | .dict toolResult => x.classifyResult request toolResult
  | raw =>
    .ok (result .writeStatusUnknown (dispatched "sent" [(.str "response_shape", .text raw.typeName)])
      "tools_call_returned_non_object_result")

/-- The parameters of `tools/call`. -/
def callParams (toolName : PyText) (arguments : List (PyText × Json)) : PyDict :=
  [(.str "name", .str toolName), (.str "arguments", .dict (PyValue.ofJsonFields arguments))]

/-- `execute`, from its call of the transport on. -/
def dispatch (request : ExecutionRequest) (toolName : PyText) (arguments : List (PyText × Json)) (s : τ) :
    Except PyException ExecutionResult × τ :=
  match x.transport.request "tools/call" (callParams toolName arguments) s with
  | (.error e, s) => (unanswered e, s)
  | (.ok raw, s) => (x.classify request raw, s)

def execute (request : ExecutionRequest) (s : τ) : Except PyException ExecutionResult × τ :=
  if request.action ≠ "mcp_tool_call" then (.ok (result .failed [] "unsupported_action"), s)
  else
    match validatedDispatchParameters request with
    | .error e =>
      if e.isA "McpAdmissionError" then
        (.ok (result .failed (dispatched "not_sent" [])
          (PyText.utf8 "invalid_mcp_admission_envelope: " ++ e.text)), s)
      else (.error e, s)
    | .ok (toolName, arguments) => x.dispatch request toolName arguments s

end McpStableToolExecutor

end Rpr
