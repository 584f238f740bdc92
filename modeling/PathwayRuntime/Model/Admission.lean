import PathwayRuntime.Model.Agent
import PathwayRuntime.Python.Equality
import PathwayRuntime.Python.Exception

/-!
# MCP admission

* `strictJsonPlain`, `strictJsonDocument`: strict JSON within the budget of admission.
* `McpServerToolSnapshot` with its `admissionBinding`; `McpServerToolSnapshot.make`.
* `McpStableAdmissionAdapter.admit`: the execution request of an admitted call; `assertTransportRetry`.
* `validatedDispatchParameters`: what the tool executor accepts.
-/

set_option autoImplicit false

namespace Rpr

/-- `McpAdmissionError`. -/
def mcpAdmissionError (message : PyText) : PyException := .ofClass "McpAdmissionError" ["ValueError"] message

/-! ## Strict JSON -/

def maxJsonNesting : ℕ := 64
def maxJsonNodes : ℕ := 10000
def maxJsonStringBytes : ℕ := 1000000
def maxJsonSerializedBytes : ℕ := 1100000
def maxJsonPathComponent : ℕ := 64

/-- The nodes and the string bytes consumed so far. -/
structure JsonBudget where
  nodes : ℕ
  stringBytes : ℕ

/-- `_utf8_size`. -/
def utf8Size : PyText → Except PyException ℕ
  | .utf8 s => .ok s.utf8ByteSize
  | .lone _ _ => .error (mcpAdmissionError "JSON strings must be valid UTF-8 text")

/-- `_child_key_path`. -/
def childKeyPath (path : String) : PyText → String
  | .utf8 key => path ++ "." ++ (if key.length > maxJsonPathComponent then
      String.ofList (key.toList.take maxJsonPathComponent) ++ "…" else key)
  | .lone _ _ => path

/-- Raise when the string bytes exceed their limit. -/
def JsonBudget.addStringBytes (path : String) (n : ℕ) (b : JsonBudget) : Except PyException JsonBudget :=
  if b.stringBytes + n > maxJsonStringBytes then
    .error (mcpAdmissionError
      (PyText.utf8 (path ++ " exceeds maximum JSON UTF-8 bytes " ++ toString maxJsonStringBytes)))
  else .ok ⟨b.nodes, b.stringBytes + n⟩

/-- `_consume_json_budget`. -/
def JsonBudget.consume (path : String) (n : ℕ) (b : JsonBudget) : Except PyException JsonBudget :=
  if b.nodes + 1 > maxJsonNodes then
    .error (mcpAdmissionError
      (PyText.utf8 (path ++ " exceeds maximum JSON node count " ++ toString maxJsonNodes)))
  else JsonBudget.addStringBytes path n ⟨b.nodes + 1, b.stringBytes⟩

/-- Raise when a container is nested too deeply. -/
def checkJsonNesting (path : String) (depth : ℕ) : Except PyException Unit :=
  if depth ≥ maxJsonNesting then
    .error (mcpAdmissionError
      (PyText.utf8 (path ++ " exceeds maximum JSON nesting depth " ++ toString maxJsonNesting)))
  else .ok ()

mutual
/-- `_strict_json_plain`, with the budget that is left. -/
def strictJsonPlain (path : String) (depth : ℕ) :
    PyValue → JsonBudget → Except PyException (Json × JsonBudget)
  | .none, b => do .ok (.null, ← b.consume path 0)
  | .bool x, b => do .ok (.bool x, ← b.consume path 0)
  | .int i, b => do .ok (.int i, ← b.consume path 0)
  | .str s, b => do
    let n ← utf8Size s
    .ok (.str s, ← b.consume path n)
  | .float x, b => do
    let b ← b.consume path 0
    if x.isFinite then .ok (.float x, b)
    else .error (mcpAdmissionError (PyText.utf8 (path ++ " contains a non-finite JSON number")))
  | .dict fields, b => do
    let b ← b.consume path 0
    checkJsonNesting path depth
    let (result, b) ← strictJsonPlainFields path (depth + 1) fields [] b
    .ok (.obj result, b)
  | .list items, b => do
    let b ← b.consume path 0
    checkJsonNesting path depth
    let (result, b) ← strictJsonPlainItems path (depth + 1) 0 items b
    .ok (.arr result, b)
  | .tuple items, b => do
    let b ← b.consume path 0
    checkJsonNesting path depth
    let (result, b) ← strictJsonPlainItems path (depth + 1) 0 items b
    .ok (.arr result, b)
  | .object typeName _, b => do
    let _ ← b.consume path 0
    .error (mcpAdmissionError (PyText.utf8 (path ++ " contains a non-JSON value of type " ++ typeName)))

def strictJsonPlainItems (path : String) (depth : ℕ) (index : ℕ) :
    List PyValue → JsonBudget → Except PyException (List Json × JsonBudget)
  | [], b => .ok ([], b)
  | item :: items, b => do
    let (j, b) ← strictJsonPlain (path ++ "[" ++ toString index ++ "]") depth item b
    let (js, b) ← strictJsonPlainItems path depth (index + 1) items b
    .ok (j :: js, b)

def strictJsonPlainFields (path : String) (depth : ℕ) : List (PyKey × PyValue) →
    List (PyText × Json) → JsonBudget → Except PyException (List (PyText × Json) × JsonBudget)
  | [], result, b => .ok (result, b)
  | (.other _, _) :: _, _, _ =>
    .error (mcpAdmissionError (PyText.utf8 (path ++ " contains a non-string object key")))
  | (.str key, item) :: fields, result, b => do
    let n ← utf8Size key
    let b ← b.addStringBytes path n
    let (j, b) ← strictJsonPlain (childKeyPath path key) depth item b
    strictJsonPlainFields path depth fields (setField key j result) b
end

/-- `_strict_json_document`: the detached value and its canonical text. -/
def strictJsonDocument (value : PyValue) (path : String) : Except PyException (Json × List Char) := do
  let (plain, _) ← strictJsonPlain path 0 value ⟨0, 0⟩
  match Json.canonical plain with
  | none => .error (mcpAdmissionError (PyText.utf8 (path ++ " cannot be canonically serialized as JSON")))
  | some encoded =>
    if Json.encodedSize encoded > maxJsonSerializedBytes then
      .error (mcpAdmissionError
        (PyText.utf8 (path ++ " exceeds maximum canonical JSON bytes " ++ toString maxJsonSerializedBytes)))
    else .ok (plain, encoded)

/-! ## Snapshots -/

/-- `not isinstance(value, str) or not value.strip()`, for a text. -/
def PyText.isBlank (s : PyText) : Bool := s.strip.length == 0

/-- `McpServerToolSnapshot`, with the hashes of its documents. -/
structure McpServerToolSnapshot where
  protocolVersion : PyText
  serverIdentity : PyText
  toolName : PyText
  serverCapabilities : Json
  toolSchema : Json
  serverCapabilitiesHash : String
  toolSchemaHash : String

/-- A mapping. -/
def requiredObject (message : PyText) : PyValue → Except PyException PyValue
  | .dict fields => .ok (.dict fields)
  | _ => .error (mcpAdmissionError message)

/-- A text that is not blank. -/
def requiredField (name : String) : PyValue → Except PyException PyText
  | .str s => if s.isBlank then .error (mcpAdmissionError (PyText.utf8 (name ++ " is required"))) else .ok s
  | _ => .error (mcpAdmissionError (PyText.utf8 (name ++ " is required")))

section Admission

variable (py : Platform)

/-- `McpServerToolSnapshot(...)`. -/
def McpServerToolSnapshot.make (protocolVersion serverIdentity serverCapabilities toolName toolSchema : PyValue) :
    Except PyException McpServerToolSnapshot := do
  let protocolVersion ← requiredField "protocol_version" protocolVersion
  let serverIdentity ← requiredField "server_identity" serverIdentity
  let toolName ← requiredField "tool_name" toolName
  let serverCapabilities ← requiredObject "server_capabilities must be a JSON object" serverCapabilities
  let toolSchema ← requiredObject "tool_schema must be a JSON object" toolSchema
  let (capabilities, capabilitiesText) ← strictJsonDocument serverCapabilities "server_capabilities"
  let (schema, schemaText) ← strictJsonDocument toolSchema "tool_schema"
  .ok ⟨protocolVersion, serverIdentity, toolName, capabilities, schema, py.sha256 capabilitiesText,
    py.sha256 schemaText⟩

/-- `admission_binding`. -/
def McpServerToolSnapshot.admissionBinding (s : McpServerToolSnapshot) : PyDict :=
  [(.str "protocol_version", .str s.protocolVersion), (.str "server_identity", .str s.serverIdentity),
    (.str "server_capabilities_hash", .text s.serverCapabilitiesHash), (.str "tool_name", .str s.toolName),
    (.str "tool_schema_hash", .text s.toolSchemaHash)]

/-- A version of the compatibility contract. -/
structure McpVersion where
  protocolVersion : String
  lifecycle : String
  requiresExperimentalFlag : Bool

/-- `McpStableAdmissionAdapter`: the versions of its contract. -/
structure McpStableAdmissionAdapter where
  versions : List McpVersion
  experimental : Bool

/-- `STABLE_PROTOCOL_VERSION`. -/
def stableProtocolVersion : String := "2025-11-25"

/-- The contract of the package. -/
def McpStableAdmissionAdapter.shipped (experimental : Bool) : McpStableAdmissionAdapter where
  versions := [⟨stableProtocolVersion, "stable", false⟩, ⟨"2026-07-28", "release_candidate", true⟩]
  experimental := experimental

/-- `_version`. -/
def McpStableAdmissionAdapter.version (adapter : McpStableAdmissionAdapter) (protocolVersion : PyText) :
    Except PyException McpVersion :=
  match adapter.versions.find? fun v => PyText.utf8 v.protocolVersion == protocolVersion with
  | some v => .ok v
  | none => .error (mcpAdmissionError (PyText.utf8 "unsupported MCP protocol version: " ++ protocolVersion))

/-- `ExecutionRequest(...)`; what it raises is a `ValueError`. -/
def makeRequest (operationId attemptId idempotencyKey action : String) (parameters : PyDict) :
    Except PyException ExecutionRequest :=
  match ExecutionRequest.make operationId attemptId idempotencyKey action parameters with
  | .ok request => .ok request
  | .error (.valueError message) => .error (.valueError (PyText.utf8 message))
  | .error _ => .error (.valueError "")

/-- `admit`. -/
def McpStableAdmissionAdapter.admitCall (adapter : McpStableAdmissionAdapter)
    (snapshot : McpServerToolSnapshot) (operationId attemptId idempotencyKey : String) (arguments : PyValue) :
    Except PyException ExecutionRequest := do
  let version ← adapter.version snapshot.protocolVersion
  if version.requiresExperimentalFlag && !adapter.experimental then
    .error (mcpAdmissionError "experimental MCP protocol version is disabled")
  else if version.lifecycle ≠ "stable" ∧ adapter.experimental = false then
    .error (mcpAdmissionError "non-stable MCP protocol version is disabled")
  else do
    let arguments ← requiredObject "arguments must be a JSON object" arguments
    let (detached, _) ← strictJsonDocument arguments "arguments"
    makeRequest operationId attemptId idempotencyKey "mcp_tool_call"
      [(.str "mcp", .dict snapshot.admissionBinding), (.str "arguments", PyValue.ofJson detached)]

/-- `assert_transport_retry`; `sameObject` is what foreign objects among the parameters answer to `==`. -/
def assertTransportRetry (sameObject : PyValue → PyValue → Bool) (original retry : ExecutionRequest) :
    Except PyException Unit :=
  if original.operationId ≠ retry.operationId ∨ original.attemptId ≠ retry.attemptId ∨
      original.idempotencyKey ≠ retry.idempotencyKey then
    .error (mcpAdmissionError "transport retry changed RPR business identity")
  else if original.action ≠ retry.action ∨
      (PyValue.dict original.parameters).same sameObject (.dict retry.parameters) = false then
    .error (mcpAdmissionError "transport retry changed admitted MCP request")
  else .ok ()

end Admission

/-! ## What the executor accepts -/

/-- `_MCP_BINDING_FIELDS`. -/
def mcpBindingFields : List String :=
  ["protocol_version", "server_identity", "server_capabilities_hash", "tool_name", "tool_schema_hash"]

/-- `set(mapping) == {...}`. -/
def PyDict.hasKeys (fields : PyDict) (keys : List String) : Bool :=
  (fields.map Prod.fst).all (fun k => (keys.map fun key => PyKey.str (.utf8 key)).contains k) &&
    keys.all fun key => (fields.get? key).isSome

/-- `_SHA256_HEX.fullmatch`. -/
def isSha256Hex : PyText → Bool
  | .utf8 s => s.length == 64 && s.toList.all fun c => c.isDigit || ('a' ≤ c && c ≤ 'f')
  | .lone _ _ => false

/-- A field of the binding that is a text without surrounding white space. -/
def bindingText (mcp : PyDict) (field : String) : Except PyException PyText :=
  match mcp.get? field with
  | some (.str s) =>
    if s.isBlank || s != s.strip then
      .error (mcpAdmissionError (PyText.utf8 ("MCP admission field " ++ field ++ " is invalid")))
    else .ok s
  | _ => .error (mcpAdmissionError (PyText.utf8 ("MCP admission field " ++ field ++ " is invalid")))

/-- A field of the binding that is a digest. -/
def bindingDigest (mcp : PyDict) (field : String) : Except PyException Unit :=
  let invalid : PyException := mcpAdmissionError
    (PyText.utf8 ("MCP admission field " ++ field ++ " must be a lowercase SHA-256 hex digest"))
  match mcp.get? field with
  | some (.str s) => if isSha256Hex s then .ok () else .error invalid
  | _ => .error invalid

/-- The checks on the binding: its tool name. -/
def validatedBinding (mcp : PyDict) : Except PyException PyText :=
  if mcp.hasKeys mcpBindingFields = false then
    .error (mcpAdmissionError "MCP admission binding fields are incomplete or unexpected")
  else do
    let protocolVersion ← bindingText mcp "protocol_version"
    let _ ← bindingText mcp "server_identity"
    let toolName ← bindingText mcp "tool_name"
    if protocolVersion ≠ PyText.utf8 stableProtocolVersion then
      .error (mcpAdmissionError
        (PyText.utf8 ("stable MCP executor requires protocol " ++ stableProtocolVersion)))
    else do
      bindingDigest mcp "server_capabilities_hash"
      bindingDigest mcp "tool_schema_hash"
      .ok toolName

/-- `_validated_dispatch_parameters`: the tool and the detached arguments. -/
def validatedDispatchParameters (request : ExecutionRequest) :
    Except PyException (PyText × List (PyText × Json)) :=
  if request.parameters.hasKeys ["mcp", "arguments"] = false then
    .error (mcpAdmissionError "MCP request parameters must contain only mcp and arguments")
  else
    match request.parameters.get? "mcp", request.parameters.get? "arguments" with
    | some (.dict mcp), some (.dict arguments) => do
      let toolName ← validatedBinding mcp
      let (detached, _) ← strictJsonDocument (.dict arguments) "arguments"
      match detached with
      | .obj fields => .ok (toolName, fields)
      | _ => .error (mcpAdmissionError "arguments must be a JSON object")
    | _, _ => .error (mcpAdmissionError "MCP admission envelope must contain object values")

end Rpr
