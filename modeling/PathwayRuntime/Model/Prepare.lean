import PathwayRuntime.Model.Admission
import PathwayRuntime.Python.Recorded

/-!
# Preparing a stable MCP call

* `McpStableServerSnapshot`; `validateInitialize`: the result of `initialize`.
* `toolHead`, `checkTool`, `checkTools`, `validateToolsList`: the result of `tools/list`.
* `McpTransport`: what a transport answers, after the calls made before; `McpStableOrchestrator.prepare`.
-/

set_option autoImplicit false

namespace Rpr

/-! ## The validator -/

/-- `_required_mapping`. -/
def requiredMapping (field : PyText) : Option Json → Except PyException (List (PyText × Json))
  | some (.obj fields) => .ok fields
  | _ => .error (mcpAdmissionError (field ++ .utf8 " must be an object"))

/-- `_required_text`. -/
def requiredText (field : PyText) : Option Json → Except PyException PyText
  | some (.str s) =>
    if s.isBlank then .error (mcpAdmissionError (field ++ .utf8 " is required")) else .ok s.strip
  | _ => .error (mcpAdmissionError (field ++ .utf8 " is required"))

/-- `McpStableServerSnapshot`. -/
structure McpStableServerSnapshot where
  protocolVersion : PyText
  serverIdentity : PyText
  serverCapabilities : Json

/-- `McpStableServerSnapshot(...)`: the capabilities are copied. -/
def McpStableServerSnapshot.make (protocolVersion serverIdentity : PyText) (capabilities : List (PyText × Json)) :
    Except PyException McpStableServerSnapshot := do
  let (frozen, _) ← strictJsonDocument (.ofJson (.obj capabilities)) "server_capabilities"
  match frozen with
  | .obj fields => .ok ⟨protocolVersion, serverIdentity, .obj fields⟩
  | _ => .error (mcpAdmissionError "server_capabilities must be a JSON object")

/-- `validate_initialize`. -/
def validateInitialize (result : List (PyText × Json)) : Except PyException McpStableServerSnapshot := do
  let protocolVersion ← requiredText "protocolVersion" (result.lookup (.utf8 "protocolVersion"))
  if protocolVersion ≠ .utf8 stableProtocolVersion then
    .error (mcpAdmissionError (.utf8 ("stable initialize requires protocol " ++ stableProtocolVersion ++ ", got ") ++
      protocolVersion))
  else do
    let serverInfo ← requiredMapping "serverInfo" (result.lookup (.utf8 "serverInfo"))
    let name ← requiredText "serverInfo.name" (serverInfo.lookup (.utf8 "name"))
    let version ← requiredText "serverInfo.version" (serverInfo.lookup (.utf8 "version"))
    let capabilities ← requiredMapping "capabilities" (result.lookup (.utf8 "capabilities"))
    match capabilities.lookup (.utf8 "tools") with
    | none => .error (mcpAdmissionError "server does not declare tools capability")
    | some tools => do
      let _ ← requiredMapping "capabilities.tools" (some tools)
      McpStableServerSnapshot.make protocolVersion (name ++ .utf8 "@" ++ version) capabilities

/-- A tool as far as its `required` list. -/
structure ToolHead where
  name : PyText
  schema : List (PyText × Json)
  required : List Json

/-- `schema.get("type") == "object"`. -/
def declaresObject (schema : List (PyText × Json)) : Bool :=
  match schema.lookup (.utf8 "type") with
  | some (.str s) => s == .utf8 "object"
  | _ => false

/-- The checks on a tool before the items of its `required` list. -/
def toolHead (index : ℕ) (names : List PyText) (tool : Json) : Except PyException ToolHead := do
  let path := "tools[" ++ toString index ++ "]"
  let tool ← requiredMapping (.utf8 path) (some tool)
  let name ← requiredText (.utf8 (path ++ ".name")) (tool.lookup (.utf8 "name"))
  if name ∈ names then .error (mcpAdmissionError (.utf8 "duplicate MCP tool name: " ++ name))
  else do
    let schema ← requiredMapping (.utf8 (path ++ ".inputSchema")) (tool.lookup (.utf8 "inputSchema"))
    if declaresObject schema = false then
      .error (mcpAdmissionError (.utf8 "tool " ++ name ++ .utf8 " inputSchema must declare object type"))
    else do
      let _ ← requiredMapping (.utf8 "tool " ++ name ++ .utf8 " inputSchema.properties")
        (some ((schema.lookup (.utf8 "properties")).getD (.obj [])))
      match (schema.lookup (.utf8 "required")).getD (.arr []) with
      | .arr required => .ok ⟨name, schema, required⟩
      | _ => .error (mcpAdmissionError (.utf8 "tool " ++ name ++ .utf8 " inputSchema.required must be a list"))

/-- Arrays and objects have no hash. -/
def Json.unhashable : Json → Bool
  | .arr _ | .obj _ => true
  | _ => false

/-- `isinstance(item, str) and item`. -/
def Json.namesProperty : Json → Option PyText
  | .str s => if s.length = 0 then none else some s
  | _ => none

/-- The items are texts that are not empty, each once. -/
def requiredValid (required : List Json) : Bool :=
  match required.mapM Json.namesProperty with
  | some names => decide names.Nodup
  | none => false

/-- The check of the items: `set(required)` hashes them. -/
def checkRequired (name : PyText) (required : List Json) : Except PyException Unit :=
  if required.any Json.unhashable then .error (.typeError "unhashable type")
  else if requiredValid required then .ok ()
  else .error (mcpAdmissionError (.utf8 "tool " ++ name ++ .utf8 " inputSchema.required is invalid"))

/-- The loop over the tools: the schema of the one that is asked for. -/
def checkTools (requested : PyText) : ℕ → List PyText → Option (List (PyText × Json)) → List Json →
    Except PyException (Option (List (PyText × Json)))
  | _, _, selected, [] => .ok selected
  | index, names, selected, tool :: tools => do
    let head ← toolHead index names tool
    checkRequired head.name head.required
    checkTools requested (index + 1) (head.name :: names)
      (if head.name = requested then some head.schema else selected) tools

/-- The name that is asked for, which may be any value. -/
def requestedName : PyValue → Except PyException PyText
  | .str s => if s.isBlank then .error (mcpAdmissionError "tool_name is required") else .ok s.strip
  | _ => .error (mcpAdmissionError "tool_name is required")

/-- `validate_tools_list`. -/
def validateToolsList (py : Platform) (result : List (PyText × Json)) (server : McpStableServerSnapshot)
    (toolName : PyValue) : Except PyException McpServerToolSnapshot := do
  let requested ← requestedName toolName
  match result.lookup (.utf8 "tools") with
  | some (.arr tools) =>
    match ← checkTools requested 0 [] none tools with
    | none => .error (mcpAdmissionError (.utf8 "requested MCP tool not found: " ++ requested))
    | some schema =>
      McpServerToolSnapshot.make py (.str server.protocolVersion) (.str server.serverIdentity)
        (.ofJson server.serverCapabilities) (.str requested) (.ofJson (.obj schema))
  | _ => .error (mcpAdmissionError "tools must be a list")

/-! ## The orchestrator -/

/-- A call of the transport. -/
inductive McpCall : Type
  | request (method : String) (params : PyValue)
  | notify (method : String) (params : PyValue)

def McpCall.method : McpCall → String
  | .request method _ => method
  | .notify method _ => method

/-- What a transport answers to a call, after the calls that were made before. -/
structure McpTransport where
  request : List McpCall → McpCall → Except PyException Json
  notify : List McpCall → McpCall → Except PyException Unit

/-- `McpPreDispatchError`. -/
def mcpPreDispatchError (phase : String) (reason : PyText) : PyException :=
  .ofClass "McpPreDispatchError" ["RuntimeError"]
    (.utf8 ("MCP pre-dispatch failure during " ++ phase ++ ": ") ++ reason)

/-- The exceptions of a transport that `_request` and `_notify` catch. -/
def transportErrors : List String := ["McpTransportError", "TimeoutError", "ConnectionError", "OSError"]

structure McpPreparedCall where
  request : ExecutionRequest
  serverIdentity : PyText
  protocolVersion : PyText
  toolName : PyValue

/-- `McpStableOrchestrator`. -/
structure McpStableOrchestrator where
  transport : McpTransport
  admission : McpStableAdmissionAdapter
  clientName : PyText
  clientVersion : PyText

/-- An answer of the transport, or its failure. -/
def answered {α : Type} (phase : String) : Except PyException α → Recording McpCall α
  | .ok a => pure a
  | .error e => if e.isAny transportErrors then throw (mcpPreDispatchError phase e.describe) else throw e

/-- `_request`. -/
def sendRequest (transport : McpTransport) (method : String) (params : PyValue) (phase : String) :
    Recording McpCall (List (PyText × Json)) := do
  let calls ← get
  modify fun calls => calls ++ [.request method params]
  match ← answered phase (transport.request calls (.request method params)) with
  | .obj fields => pure fields
  | _ => throw (mcpPreDispatchError phase "transport returned a non-object result")

/-- `_notify`. -/
def sendNotification (transport : McpTransport) (method : String) (params : PyValue) (phase : String) :
    Recording McpCall Unit := do
  let calls ← get
  modify fun calls => calls ++ [.notify method params]
  answered phase (transport.notify calls (.notify method params))

/-- `except McpAdmissionError as exc: raise McpPreDispatchError(phase, str(exc))`. -/
def admitted {α : Type} (phase : String) : Except PyException α → Recording McpCall α
  | .ok a => pure a
  | .error e => if e.isA "McpAdmissionError" then throw (mcpPreDispatchError phase e.text) else throw e

section Prepare

variable (py : Platform) (orchestrator : McpStableOrchestrator) (toolName : PyValue) (arguments : PyDict)
  (operationId attemptId idempotencyKey : String)

def McpStableOrchestrator.initializeParams : PyValue :=
  .ofFields [("protocolVersion", .text stableProtocolVersion), ("capabilities", .dict []),
    ("clientInfo", .ofFields [("name", .str orchestrator.clientName), ("version", .str orchestrator.clientVersion)])]

/-- The second `try` block of `prepare`. -/
def McpStableOrchestrator.admitTool (toolsResult : List (PyText × Json)) (server : McpStableServerSnapshot) :
    Except PyException ExecutionRequest := do
  let snapshot ← validateToolsList py toolsResult server toolName
  orchestrator.admission.admitCall snapshot operationId attemptId idempotencyKey (.dict arguments)

/-- `prepare`. -/
def McpStableOrchestrator.prepare : Recording McpCall McpPreparedCall := do
  let initializeResult ← sendRequest orchestrator.transport "initialize" orchestrator.initializeParams "initialize"
  let server ← admitted "initialize_validation" (validateInitialize initializeResult)
  sendNotification orchestrator.transport "notifications/initialized" (.dict []) "initialized_notification"
  let toolsResult ← sendRequest orchestrator.transport "tools/list" (.dict []) "tools_list"
  let request ← admitted "admission"
    (orchestrator.admitTool py toolName arguments operationId attemptId idempotencyKey toolsResult server)
  pure ⟨request, server.serverIdentity, server.protocolVersion, toolName⟩

end Prepare

end Rpr
