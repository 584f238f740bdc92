import Mathlib.Data.List.Infix
import PathwayRuntime.Model.Admission
import PathwayRuntime.Python.Loaded

/-!
# Retained MCP evidence

* `retainedJson`: strict JSON whose keys name no credential, nested as deeply as calls can be.
* `McpDiagnosticsEvidence`, `McpProcessExit`: what is kept of a process.
* `McpRetainedEvidence`: a payload with its hash.
* `toJson`, `fromJson`: the envelope of a payload and its hash.
* `buildMcpRetainedEvidence`: the evidence of one tool call.
-/

set_option autoImplicit false

namespace Rpr

/-- `McpRetainedEvidenceError`. -/
def mcpRetainedEvidenceError (message : PyText) : PyException :=
  .ofClass "McpRetainedEvidenceError" ["ValueError"] message

/-! ## Strict JSON -/

/-- `_FORBIDDEN_KEY_FRAGMENTS`. -/
def forbiddenKeyFragments : List String :=
  ["authorization", "credential", "password", "secret", "token", "api_key", "apikey"]

section Json

variable (py : Platform)

/-- The key names something that may hold a credential. -/
def forbiddenKey (key : PyText) : Bool :=
  forbiddenKeyFragments.any fun fragment =>
    PyText.codes fragment <:+: (py.casefold key).codes.map fun c => if c = 45 then 95 else c

mutual
/-- `_strict_json`, when so many of its calls may still be nested on containers. -/
def retainedJson (frames : ℕ) (path : PyText) : PyValue → Except PyException Json
  | .none => .ok .null
  | .str s => .ok (.str s)
  | .bool b => .ok (.bool b)
  | .int i => .ok (.int i)
  | .float x =>
    if x.isFinite then .ok (.float x)
    else .error (mcpRetainedEvidenceError (PyText.utf8 "non-finite number at " ++ path))
  | .dict fields =>
    match frames with
    | 0 => .error recursionError
    | frames + 1 => do .ok (.obj (← retainedFields frames path fields []))
  | .list items | .tuple items =>
    match frames with
    | 0 => .error recursionError
    | frames + 1 => do .ok (.arr (← retainedItems frames path 0 items))
  | .object typeName _ =>
    .error (mcpRetainedEvidenceError
      (PyText.utf8 "unsupported JSON value at " ++ path ++ PyText.utf8 (": " ++ typeName)))

def retainedItems (frames : ℕ) (path : PyText) (index : ℕ) : List PyValue → Except PyException (List Json)
  | [] => .ok []
  | item :: items => do
    let j ← retainedJson frames (path ++ PyText.utf8 ("[" ++ toString index ++ "]")) item
    .ok (j :: (← retainedItems frames path (index + 1) items))

def retainedFields (frames : ℕ) (path : PyText) : List (PyKey × PyValue) → List (PyText × Json) →
    Except PyException (List (PyText × Json))
  | [], result => .ok result
  | (.other _, _) :: _, _ =>
    .error (mcpRetainedEvidenceError (PyText.utf8 "non-string object key at " ++ path))
  | (.str key, item) :: fields, result =>
    if forbiddenKey py key then
      .error (mcpRetainedEvidenceError (PyText.utf8 "potential credential-bearing key is forbidden at " ++
        path ++ PyText.utf8 "." ++ key))
    else do
      let j ← retainedJson frames (path ++ PyText.utf8 "." ++ key) item
      retainedFields frames path fields (setField key j result)
end

/-- `_required_text`; a missing value is none. -/
def retainedText (name : String) : Option PyValue → Except PyException PyText
  | some (.str s) =>
    if s.isBlank then .error (mcpRetainedEvidenceError (PyText.utf8 (name ++ " must be a non-empty string")))
    else .ok s.strip
  | _ => .error (mcpRetainedEvidenceError (PyText.utf8 (name ++ " must be a non-empty string")))

/-! ## Parts of the evidence -/

structure McpDiagnosticsEvidence where
  bytesRetained : ℕ
  truncated : Bool

/-- `McpDiagnosticsEvidence(...)`. -/
def McpDiagnosticsEvidence.make : PyValue → PyValue → Except PyException McpDiagnosticsEvidence
  | .int n, truncated =>
    if n < 0 then .error (mcpRetainedEvidenceError "bytes_retained must be non-negative")
    else
      match truncated with
      | .bool truncated => .ok ⟨n.toNat, truncated⟩
      | _ => .error (mcpRetainedEvidenceError "truncated must be a boolean")
  | _, _ => .error (mcpRetainedEvidenceError "bytes_retained must be an integer")

structure McpProcessExit where
  exitCode : ℤ
  graceful : Bool
  terminated : Bool
  killed : Bool

mutual
/-- Every integer has a decimal text. -/
def Json.intsWritable : Json → Bool
  | .int i => i.natAbs < Json.intLimit
  | .arr items => intsWritableItems items
  | .obj fields => intsWritableFields fields
  | _ => true

def Json.intsWritableItems : List Json → Bool
  | [] => true
  | j :: js => j.intsWritable && intsWritableItems js

def Json.intsWritableFields : List (PyText × Json) → Bool
  | [] => true
  | (_, j) :: fields => j.intsWritable && intsWritableFields fields
end

/-- `_hash_payload`. -/
def hashPayload (js : JsonPlatform) (payload : Json) : Except PyException String :=
  if (PyValue.ofJson payload).depth > js.encoderFrames then .error recursionError
  else match Json.canonical payload with
    | some text => .ok (py.sha256 text)
    | none => .error (if payload.intsWritable then unicodeEncodeError else intToStrError)

variable {py} in
/-- A payload that is hashed has a canonical form. -/
theorem hashPayload_eq_ok {js : JsonPlatform} {payload : Json} {sha256 : String} :
    hashPayload py js payload = .ok sha256 ↔
      (PyValue.ofJson payload).depth ≤ js.encoderFrames ∧ payload.canonical.map py.sha256 = some sha256 := by
  unfold hashPayload
  by_cases h : (PyValue.ofJson payload).depth > js.encoderFrames
  · rw [if_pos h]
    exact iff_of_false (fun h => (nomatch h)) fun hc => absurd hc.1 (by omega)
  · rw [if_neg h, and_iff_right (by omega)]
    cases payload.canonical with
    | none => exact iff_of_false (fun h => (nomatch h)) fun h => (nomatch h)
    | some text => exact ⟨fun h => congrArg some (Except.ok.inj h), fun h => congrArg Except.ok (Option.some.inj h)⟩

/-- `McpRetainedEvidence`: the hash is the one of the payload. -/
structure McpRetainedEvidence (py : Platform) where
  payload : Json
  sha256 : String
  hash : payload.canonical.map py.sha256 = some sha256

/-- `McpRetainedEvidence(...)`, when so many calls of `_strict_json` may be nested. -/
def McpRetainedEvidence.make (js : JsonPlatform) (frames : ℕ) (payload : PyValue) (sha256 : String) :
    Except PyException (McpRetainedEvidence py) :=
  match retainedJson py frames "$" payload with
  | .error e => .error e
  | .ok normalized =>
    match h : hashPayload py js normalized with
    | .error e => .error e
    | .ok expected =>
      if hash : sha256 = expected then .ok ⟨normalized, sha256, hash ▸ (hashPayload_eq_ok.mp h).2⟩
      else .error (mcpRetainedEvidenceError "retained evidence hash mismatch")

/-! ## The envelope -/

namespace McpRetainedEvidence

variable {py}

/-- The envelope that is written. -/
def envelope (e : McpRetainedEvidence py) : Json := .obj [("payload", e.payload), ("sha256", .text e.sha256)]

/-- `to_json`; a payload that was hashed has no lone surrogate. -/
def toJson (js : JsonPlatform) (e : McpRetainedEvidence py) : Except PyException PyText :=
  if (PyValue.ofJson e.envelope).depth > js.encoderFrames then .error recursionError
  else match Json.canonical e.envelope with
    | some text => .ok (.utf8 (String.ofList text))
    | none => .error intToStrError

end McpRetainedEvidence

/-- The hooks of `from_json`: no word is a number. -/
def evidenceHooks : JsonHooks where
  objectPairs := defaultHooks.objectPairs
  parseConstant name := .error (.valueError name)

/-- `json.loads(value, parse_constant=...)`; `loneLoads` reads the texts with lone surrogates. -/
def evidenceLoads (js : JsonPlatform) (loneLoads : List ℕ → Except PyException Json) :
    PyText → Except PyException Json
  | .utf8 s => loads js evidenceHooks s.toList
  | .lone codes _ => loneLoads codes

/-- `except (json.JSONDecodeError, ValueError)`. -/
def evidenceError (e : PyException) : PyException :=
  if e.isAny ["JSONDecodeError", "ValueError"] then
    mcpRetainedEvidenceError (PyText.utf8 "invalid retained evidence JSON: " ++ e.text)
  else e

/-- `cls(payload, sha256)`; a text with lone surrogates is no hash. -/
def McpRetainedEvidence.ofText (js : JsonPlatform) (frames : ℕ) (payload : PyValue) :
    PyText → Except PyException (McpRetainedEvidence py)
  | .utf8 sha256 => McpRetainedEvidence.make py js frames payload sha256
  | .lone _ _ => do
    let normalized ← retainedJson py frames "$" payload
    let _ ← hashPayload py js normalized
    .error (mcpRetainedEvidenceError "retained evidence hash mismatch")

/-- The checks on the shape of the envelope. -/
def McpRetainedEvidence.ofEnvelope (js : JsonPlatform) (frames : ℕ) (envelope : PyDict) :
    Except PyException (McpRetainedEvidence py) :=
  if envelope.hasKeys ["payload", "sha256"] = false then
    .error (mcpRetainedEvidenceError "retained evidence envelope shape mismatch")
  else do
    let payload ← envelope.getItem "payload"
    let sha256 ← retainedText "sha256" (envelope.get? "sha256")
    ofText py js frames payload sha256

/-- `from_json`, which is a call itself. -/
def McpRetainedEvidence.fromJson (js : JsonPlatform) (frames : ℕ) (loneLoads : List ℕ → Except PyException Json)
    (value : PyText) : Except PyException (McpRetainedEvidence py) := do
  let envelope ← (evidenceLoads js loneLoads value).mapError evidenceError
  match envelope with
  | .obj fields => ofEnvelope py js (frames - 1) (PyValue.ofJsonFields fields)
  | _ => .error (mcpRetainedEvidenceError "retained evidence envelope shape mismatch")

/-! ## The evidence of a call -/

/-- The keys that are read from the binding. -/
def admissionKeys : List String :=
  ["protocol_version", "server_name", "server_version", "server_capabilities_sha256", "tool_name",
    "tool_schema_sha256"]

/-- The loop over the keys. -/
def retainedAdmission (mcp : PyDict) : List String → Except PyException (List (String × PyValue))
  | [] => .ok []
  | key :: keys => do
    let value ← retainedText ("mcp." ++ key) (mcp.get? key)
    .ok ((key, .str value) :: (← retainedAdmission mcp keys))

/-- `dispatch_state not in {...}`: an array or an object has no hash. -/
def checkDispatchState : Option Json → Except PyException PyText
  | some (.str s) =>
    if s ∈ ["not_sent", "possibly_sent", "unknown", "sent"].map PyText.utf8 then .ok s
    else .error (mcpRetainedEvidenceError "execution evidence has invalid dispatch_state")
  | some (.arr _) => .error (.typeError "unhashable type: 'list'")
  | some (.obj _) => .error (.typeError "unhashable type: 'dict'")
  | _ => .error (mcpRetainedEvidenceError "execution evidence has invalid dispatch_state")

/-- The readback of the evidence. -/
def retainedReadback (frames : ℕ) : Option ReadbackEvidence → Except PyException PyValue
  | none => .ok .none
  | some readback => do
    let seen ← retainedJson py frames "$.execution.readback.observed" (.dict readback.observed)
    .ok (.ofFields [("verified", .bool readback.verified), ("observed", PyValue.ofJson seen),
      ("reason", .optText readback.reason)])

/-- The process exit of the evidence. -/
def retainedExit : Option McpProcessExit → PyValue
  | none => .none
  | some exit => .ofFields [("exit_code", .int exit.exitCode), ("graceful", .bool exit.graceful),
      ("terminated", .bool exit.terminated), ("killed", .bool exit.killed)]

/-- The diagnostics of the evidence. -/
def retainedDiagnostics : Option McpDiagnosticsEvidence → PyValue
  | none => .none
  | some d => .ofFields [("bytes_retained", .int d.bytesRetained), ("truncated", .bool d.truncated)]

/-- `build_mcp_retained_evidence`. -/
def buildMcpRetainedEvidence (js : JsonPlatform) (frames : ℕ) (request : ExecutionRequest) (result : ExecutionResult)
    (processExit : Option McpProcessExit) (diagnostics : Option McpDiagnosticsEvidence)
    (residualBoundary : PyValue) : Except PyException (McpRetainedEvidence py) :=
  if request.action ≠ "mcp_tool_call" then
    .error (mcpRetainedEvidenceError "request is not an MCP tool call")
  else
    match request.parameters.get? "mcp" with
    | some (.dict mcp) => do
      let admission ← retainedAdmission mcp admissionKeys
      let evidence ← retainedJson py frames "$.execution.evidence" (.dict result.evidence)
      let dispatchState ← checkDispatchState (evidence.get? "dispatch_state")
      let readback ← retainedReadback py frames result.readback
      let boundary ← retainedText "residual_boundary" (some residualBoundary)
      let payload ← retainedJson py frames "$" (.ofFields
        [("schema", .text "rpr.mcp.retained-evidence.v1"),
          ("operation", .ofFields [("operation_id", .text request.operationId),
            ("attempt_id", .text request.attemptId),
            ("idempotency_key_sha256", .text (py.sha256 request.idempotencyKey.toList))]),
          ("admission", .ofFields admission),
          ("execution", .ofFields [("status", .text result.status.value), ("dispatch_state", .str dispatchState),
            ("reason", .optText result.reason), ("readback", readback)]),
          ("process_exit", retainedExit processExit),
          ("diagnostics", retainedDiagnostics diagnostics),
          ("residual_boundary", .str boundary)])
      let sha256 ← hashPayload py js payload
      McpRetainedEvidence.make py js frames (PyValue.ofJson payload) sha256
    | _ => .error (mcpRetainedEvidenceError "missing MCP admission binding")

end Json

end Rpr
