import PathwayRuntime.Mcp.Retained
import PathwayRuntime.Mcp.Strict

/-!
# What admission accepts, and what the later stages accept

Admission, the ledger and the codec limit differently wrapped copies of the same arguments.

* `plain_leaves`: what the plain copy of strict JSON is.
* `admitCall_eq_ok`: what an admitted request is.
* **`admitted_accepted_iff`**: which admitted requests the ledger and the codec accept.
-/

set_option autoImplicit false

namespace Rpr

/-! ## The plain copy -/

open Json in
theorem leavesFields_setField {p : Json → Prop} {key : PyText} {value : Json} {fields : List (PyText × Json)}
    (hfields : LeavesFields p fields) (hkey : p (.str key)) (hvalue : Leaves p value) :
    LeavesFields p (setField key value fields) := by
  induction fields with
  | nil => exact ⟨hkey, hvalue, trivial⟩
  | cons f fields ih =>
    obtain ⟨k, v⟩ := f
    rw [setField]
    split_ifs with hk
    · exact ⟨hfields.1, hvalue, hfields.2.2⟩
    · exact ⟨hfields.1, hfields.2.1, ih hfields.2.2⟩

open PyValue Json in
mutual
/-- The plain copy has a member a key, and of strict JSON no infinite number. -/
theorem plain_leaves (v : PyValue) (h : v.Everywhere IsJson) : v.plain.UniqueKeys ∧ v.plain.Leaves IsFinite := by
  match v with
  | .none | .bool _ | .int _ | .str _ => exact ⟨trivial, trivial⟩
  | .float x => exact ⟨trivial, h⟩
  | .list items | .tuple items => exact plainItems_leaves items h.2
  | .dict fields =>
    obtain ⟨hnd, hunique, hfinite⟩ := plainFields_leaves fields [] List.nodup_nil trivial trivial h.2
    exact ⟨⟨hnd, hunique⟩, hfinite⟩
  | .object typeName form => exact h.elim

theorem plainItems_leaves (items : List PyValue) (h : EverywhereItems IsJson items) :
    UniqueItems (plainItems items) ∧ LeavesItems IsFinite (plainItems items) := by
  match items with
  | [] => exact ⟨trivial, trivial⟩
  | item :: items =>
    obtain ⟨hunique, hfinite⟩ := plain_leaves item h.1
    obtain ⟨huniques, hfinites⟩ := plainItems_leaves items h.2
    exact ⟨⟨hunique, huniques⟩, hfinite, hfinites⟩

theorem plainFields_leaves (fields : PyDict) (result : List (PyText × Json)) (hnd : (result.map Prod.fst).Nodup)
    (hunique : UniqueFields result) (hfinite : LeavesFields IsFinite result) (h : EverywhereFields IsJson fields) :
    ((plainFields fields result).map Prod.fst).Nodup ∧ UniqueFields (plainFields fields result) ∧
      LeavesFields IsFinite (plainFields fields result) := by
  match fields with
  | [] => exact ⟨hnd, hunique, hfinite⟩
  | (.other form, value) :: fields => exact plainFields_leaves fields result hnd hunique hfinite h.2
  | (.str key, value) :: fields =>
    obtain ⟨huniqueValue, hfiniteValue⟩ := plain_leaves value h.1
    obtain ⟨hnd', hunique'⟩ := @uniqueFields_setField key _ _ hnd hunique huniqueValue
    exact plainFields_leaves fields _ hnd' hunique' (leavesFields_setField hfinite trivial hfiniteValue) h.2
end

/-- What a document is. -/
theorem strictJsonDocument_eq_ok {v : PyValue} {path : String} {j : Json} {text : List Char}
    (h : strictJsonDocument v path = .ok (j, text)) : j = v.plain ∧ j.UniqueKeys ∧ j.Leaves Json.IsEncodable ∧
      j.Leaves Json.IsShort ∧ j.Leaves Json.IsFinite := by
  rw [strictJsonDocument] at h
  obtain ⟨⟨plain, b⟩, hplain, h⟩ := except_bind_eq_ok.mp h
  obtain ⟨hstrict, rfl⟩ := strictJsonPlain_iff.mp ⟨b, hplain⟩
  obtain ⟨hunique, hfinite⟩ := plain_leaves v hstrict.json
  dsimp only at h
  split at h
  · cases h
  · rename_i encoded hencoded
    split_ifs at h
    obtain ⟨rfl, -⟩ := Prod.mk.inj (Except.ok.inj h)
    obtain ⟨hencodable, hshort, -⟩ := Json.render_eq_some _ hencoded
    exact ⟨rfl, hunique, hencodable, hshort, hfinite⟩

/-! ## Admitted requests -/

/-- What `ExecutionRequest(...)` is. -/
theorem makeRequest_eq_ok {operationId attemptId idempotencyKey action : String} {parameters : PyDict}
    {request : ExecutionRequest}
    (h : makeRequest operationId attemptId idempotencyKey action parameters = .ok request) :
    request.operationId = operationId ∧ request.action = action ∧ request.parameters = parameters := by
  rw [makeRequest] at h
  split at h
  · rename_i made hmade
    obtain rfl := Except.ok.inj h
    rw [ExecutionRequest.make] at hmade
    split_ifs at hmade
    obtain rfl := Except.ok.inj hmade
    exact ⟨rfl, rfl, rfl⟩
  · cases h
  · cases h

/-- **What an admitted request is**: the binding of the snapshot, and the plain copy of the arguments. -/
theorem admitCall_eq_ok {adapter : McpStableAdmissionAdapter} {snapshot : McpServerToolSnapshot}
    {operationId attemptId idempotencyKey : String} {arguments : PyValue} {request : ExecutionRequest}
    (h : adapter.admitCall snapshot operationId attemptId idempotencyKey arguments = .ok request) :
    snapshot.protocolVersion.IsUtf8 ∧ request.operationId = operationId ∧ request.action = "mcp_tool_call" ∧
      ∃ fields, arguments.plain = .obj fields ∧
        request.parameters = [(.str "mcp", .dict snapshot.admissionBinding),
          (.str "arguments", .dict (PyValue.ofJsonFields fields))] ∧
        arguments.plain.UniqueKeys ∧ arguments.plain.Leaves Json.IsEncodable ∧
        arguments.plain.Leaves Json.IsShort ∧ arguments.plain.Leaves Json.IsFinite := by
  rw [McpStableAdmissionAdapter.admitCall] at h
  obtain ⟨version, hversion, h⟩ := except_bind_eq_ok.mp h
  have hutf8 : snapshot.protocolVersion.IsUtf8 := by
    rw [McpStableAdmissionAdapter.version] at hversion
    split at hversion
    · rename_i v hfind
      have heq := List.find?_some hfind
      rw [beq_iff_eq] at heq
      rw [← heq]
      trivial
    · cases hversion
  split_ifs at h
  obtain ⟨value, hvalue, h⟩ := except_bind_eq_ok.mp h
  obtain ⟨⟨detached, text⟩, hdocument, h⟩ := except_bind_eq_ok.mp h
  cases arguments with
  | dict args =>
    obtain rfl := Except.ok.inj hvalue
    obtain ⟨rfl, hunique, hencodable, hshort, hfinite⟩ := strictJsonDocument_eq_ok hdocument
    obtain ⟨hid, haction, hparameters⟩ := makeRequest_eq_ok h
    exact ⟨hutf8, hid, haction, _, rfl, hparameters, hunique, hencodable, hshort, hfinite⟩
  | _ => cases hvalue

/-- The executor sends the tool of the snapshot and the admitted arguments. -/
theorem dispatchParameters_of_admitCall {adapter : McpStableAdmissionAdapter} {snapshot : McpServerToolSnapshot}
    {operationId attemptId idempotencyKey : String} {arguments : PyValue} {request : ExecutionRequest}
    (h : adapter.admitCall snapshot operationId attemptId idempotencyKey arguments = .ok request)
    {toolName : PyText} {fields : List (PyText × Json)}
    (hvalid : validatedDispatchParameters request = .ok (toolName, fields)) :
    toolName = snapshot.toolName ∧ arguments.plain = .obj fields := by
  obtain ⟨-, -, -, given, hplain, hparameters, hunique, -⟩ := admitCall_eq_ok h
  obtain ⟨mcp, sent, -, hmcp, hsent, hbinding, text, hdocument⟩ := validatedDispatchParameters_eq_ok hvalid
  rw [hparameters] at hmcp hsent
  obtain rfl : snapshot.admissionBinding = mcp := PyValue.dict.inj (Option.some.inj hmcp)
  obtain rfl : PyValue.ofJsonFields given = sent := PyValue.dict.inj (Option.some.inj hsent)
  constructor
  · obtain ⟨hname, -⟩ := bindingText_eq_ok (validatedBinding_eq_ok hbinding).2.2
    exact (PyValue.str.inj (Option.some.inj hname)).symm
  · rw [hplain] at hunique ⊢
    exact ((strictJsonDocument_eq_ok hdocument).1.trans (plain_ofJson (.obj given) hunique)).symm

/-! ## The identity and the envelope -/

/-- The identity of an admitted request. -/
def identityJson (snapshot : McpServerToolSnapshot) (operationId : String) (arguments : Json) : Json :=
  .obj [("operation_id", .text operationId), ("action", .text "mcp_tool_call"), ("parameters", .obj [
    ("mcp", .obj [("protocol_version", .str snapshot.protocolVersion),
      ("server_identity", .str snapshot.serverIdentity),
      ("server_capabilities_hash", .text snapshot.serverCapabilitiesHash), ("tool_name", .str snapshot.toolName),
      ("tool_schema_hash", .text snapshot.toolSchemaHash)]), ("arguments", arguments)])]

/-- The envelope of its `tools/call`. -/
def envelopeJson (snapshot : McpServerToolSnapshot) (requestId : ℕ) (arguments : Json) : JsonObject :=
  [("jsonrpc", .text "2.0"), ("id", .int requestId), ("method", .text "tools/call"),
    ("params", .obj [("name", .str snapshot.toolName), ("arguments", arguments)])]

/-- The texts of every identity, and of every envelope. -/
def identityTexts : List PyText :=
  ["operation_id", "action", "mcp_tool_call", "parameters", "mcp", "protocol_version", "server_identity",
    "server_capabilities_hash", "tool_name", "tool_schema_hash", "arguments"]

def envelopeTexts : List PyText :=
  ["jsonrpc", "2.0", "id", "method", "tools/call", "params", "name", "arguments"]

open JsonWeight

variable (snapshot : McpServerToolSnapshot) (operationId : String) (requestId : ℕ) (arguments : Json)

/-- The bytes of the other texts of an identity, and of their literals. -/
def identityBytes : ℕ :=
  PyText.bytes operationId + snapshot.protocolVersion.bytes + snapshot.serverIdentity.bytes +
    PyText.bytes snapshot.serverCapabilitiesHash + snapshot.toolName.bytes + PyText.bytes snapshot.toolSchemaHash

def identityLiterals : ℕ :=
  literalSize operationId + literalSize snapshot.protocolVersion + literalSize snapshot.serverIdentity +
    literalSize snapshot.serverCapabilitiesHash + literalSize snapshot.toolName +
    literalSize snapshot.toolSchemaHash

theorem nodes_identityJson : nodes.total (identityJson snapshot operationId arguments) =
    nodes.total arguments + 10 := by
  simp only [identityJson, total, totalFields, nodes_own, nodes_key, Json.text]
  omega

theorem stringBytes_identityJson : stringBytes.total (identityJson snapshot operationId arguments) =
    stringBytes.total arguments + 133 + identityBytes snapshot operationId := by
  have htexts : (identityTexts.map PyText.bytes).sum = 133 := by decide
  simp only [identityTexts, List.map_cons, List.map_nil, List.sum_cons, List.sum_nil] at htexts
  simp only [identityJson, total, totalFields, stringBytes_str, stringBytes_obj, stringBytes_key, Json.text,
    identityBytes]
  omega

theorem size_identityJson : size.total (identityJson snapshot operationId arguments) =
    size.total arguments + 178 + identityLiterals snapshot operationId := by
  have htexts : (identityTexts.map literalSize).sum = 155 := by decide
  simp only [identityTexts, List.map_cons, List.map_nil, List.sum_cons, List.sum_nil] at htexts
  simp only [identityJson, total, totalFields, size_str, size_obj, size_key, Json.text, identityLiterals,
    List.length_cons, List.length_nil]
  omega

theorem size_envelopeJson : size.total (.obj (envelopeJson snapshot requestId arguments)) =
    size.total arguments + 77 + literalSize snapshot.toolName +
      Json.encodedSize (toString (requestId : ℤ)).toList := by
  have htexts : (envelopeTexts.map literalSize).sum = 63 := by decide
  simp only [envelopeTexts, List.map_cons, List.map_nil, List.sum_cons, List.sum_nil] at htexts
  simp only [envelopeJson, total, totalFields, size_int, size_str, size_obj, size_key, Json.text,
    List.length_cons, List.length_nil]
  omega

/-- Two containers more than the arguments. -/
theorem depth_identityJson : (PyValue.ofJson (identityJson snapshot operationId arguments)).depth =
    max 1 (PyValue.ofJson arguments).depth + 2 := by
  simp [identityJson, PyValue.ofJson, PyValue.ofJsonFields, PyValue.depth, PyValue.depthFields, Json.text]

theorem depth_envelopeJson : (PyValue.ofJson (.obj (envelopeJson snapshot requestId arguments))).depth =
    (PyValue.ofJson arguments).depth + 2 := by
  simp [envelopeJson, PyValue.ofJson, PyValue.ofJsonFields, PyValue.depth, PyValue.depthFields, Json.text]

/-! ## The later stages -/

/-- The codec a channel has by default. -/
def McpStdioLineCodec.default : McpStdioLineCodec := .fresh 1048576 (by decide)

/-- What the ledger and the codec ask of a snapshot, an operation, arguments and an id. -/
structure AcceptedLater (js : JsonPlatform) : Prop where
  serverIdentity : snapshot.serverIdentity.IsUtf8
  toolName : snapshot.toolName.IsUtf8
  nesting : (PyValue.ofJson arguments).depth + 2 ≤ maxNesting
  frames : (PyValue.ofJson arguments).depth + 2 ≤ js.encoderFrames
  nodes : nodes.total arguments + 10 ≤ maxNodes
  stringBytes : stringBytes.total arguments + 133 + identityBytes snapshot operationId ≤ maxStringBytes
  canonicalBytes : size.total arguments + 178 + identityLiterals snapshot operationId ≤ maxCanonicalBytes
  messageBytes : size.total arguments + 77 + literalSize snapshot.toolName +
    Json.encodedSize (toString (requestId : ℤ)).toList ≤ 1048576
  requestId : requestId < Json.intLimit

variable {snapshot operationId requestId arguments}

open Json in
theorem leaves_identityJson {p : Json → Prop} (htexts : ∀ s, PyText.IsUtf8 s → p (.str s)) :
    (identityJson snapshot operationId arguments).Leaves p ↔ (p (.str snapshot.protocolVersion) ∧
      p (.str snapshot.serverIdentity) ∧ p (.str snapshot.toolName)) ∧ arguments.Leaves p := by
  have hliteral : ∀ s : String, p (.str s) := fun s => htexts s trivial
  simp only [identityJson, Leaves, LeavesFields, Json.text, hliteral, true_and, and_true, and_assoc]

open Json in
theorem leaves_envelopeJson {p : Json → Prop} (htexts : ∀ s, PyText.IsUtf8 s → p (.str s)) :
    Leaves p (.obj (envelopeJson snapshot requestId arguments)) ↔
      (p (.int requestId) ∧ p (.str snapshot.toolName)) ∧ arguments.Leaves p := by
  have hliteral : ∀ s : String, p (.str s) := fun s => htexts s trivial
  simp only [envelopeJson, Leaves, LeavesFields, Json.text, hliteral, true_and, and_true, and_assoc]

theorem uniqueKeys_identityJson (h : arguments.UniqueKeys) :
    (identityJson snapshot operationId arguments).UniqueKeys := by
  simp [identityJson, Json.UniqueKeys, Json.UniqueFields, Json.text, h]

/-- When the codec encodes a message. -/
theorem McpStdioLineCodec.encode_iff {js : JsonPlatform} {limit : ℕ} {hpos : 0 < limit}
    {fields : List (PyText × Json)} :
    (∃ line, ((fresh limit hpos).encode js.json (.dict (PyValue.ofJsonFields fields))).1 = .ok line) ↔
      ∃ text, dumps js (PyValue.ofJsonFields fields) = .ok (some text) ∧ Json.encodedSize text ≤ limit := by
  constructor
  · rintro ⟨line, h⟩
    obtain ⟨-, -, fields', text, heq, hdumps, hlength, -⟩ := encode_eq_ok (Prod.ext h rfl)
    obtain rfl := PyValue.dict.inj heq
    rw [length_encodeUtf8] at hlength
    exact ⟨text, hdumps, hlength⟩
  · rintro ⟨text, hdumps, hlength⟩
    have hjson : js.json.dumps (PyValue.ofJsonFields fields) = .ok (some text) := hdumps
    refine ⟨encodeUtf8 text ++ [lf], ?_⟩
    have hle : ¬ (encodeUtf8 text).length > limit := by
      rw [length_encodeUtf8]
      exact Nat.not_lt_of_le hlength
    rw [encode, fresh, if_neg Bool.false_ne_true]
    simp only [hjson, if_neg (json_noBom hjson), if_neg hle]

/-- **When the later stages accept an admitted request.** The ledger finds a fingerprint and the default codec
encodes the envelope of `tools/call` exactly when the texts of the snapshot are encodable, and the limits have
room for what the identity and the envelope add to the arguments. -/
theorem admitted_accepted_iff (py : Platform) (js : JsonPlatform) (adapter : McpStableAdmissionAdapter)
    (snapshot : McpServerToolSnapshot) (operationId attemptId idempotencyKey : String) (arguments : PyValue)
    (request : ExecutionRequest) (requestId : ℕ)
    (h : adapter.admitCall snapshot operationId attemptId idempotencyKey arguments = .ok request) :
    ∃ fields, request.parameters.get? "arguments" = some (.dict (PyValue.ofJsonFields fields)) ∧
      (((∃ digest, fingerprint py request = .ok digest) ∧
        ∃ line, (McpStdioLineCodec.default.encode js.json (.dict (McpJsonRpcSession.requestEnvelope requestId
          "tools/call" (McpStableToolExecutor.callParams snapshot.toolName fields)))).1 = .ok line) ↔
        AcceptedLater snapshot operationId requestId arguments.plain js) := by
  obtain ⟨hversion, hid, haction, fields, hplain, hparameters, hunique, hencodable, hshort, hfinite⟩ :=
    admitCall_eq_ok h
  refine ⟨fields, by rw [hparameters]; rfl, ?_⟩
  have hidentity : .ofFields [("operation_id", .text request.operationId), ("action", .text request.action),
      ("parameters", .dict request.parameters)] =
      PyValue.ofJson (identityJson snapshot operationId arguments.plain) := by
    rw [hid, haction, hparameters, hplain]
    rfl
  have henvelope : McpJsonRpcSession.requestEnvelope requestId "tools/call"
      (McpStableToolExecutor.callParams snapshot.toolName fields) =
      PyValue.ofJsonFields (envelopeJson snapshot requestId arguments.plain) := by
    rw [hplain]
    rfl
  have hdigest : (∃ digest, fingerprint py request = .ok digest) ↔ ∃ c, request.canonicalIdentity = .ok c := by
    rw [fingerprint]
    cases request.canonicalIdentity <;> simp [Except.map]
  rw [hdigest, canonicalIdentity_iff (uniqueKeys_identityJson hunique) hidentity, henvelope,
    McpStdioLineCodec.default, McpStdioLineCodec.encode_iff, Json.dumps_le_iff]
  rw [nodes_identityJson, stringBytes_identityJson, size_identityJson, size_envelopeJson, depth_identityJson,
    depth_envelopeJson]
  have hlimit : 3 ≤ maxNesting := by decide
  constructor
  · rintro ⟨⟨hidEncodable, -, -, hnesting, hnodes, hbytes, hcanonical⟩, -, hidShort, -, hframes, hmessage⟩
    obtain ⟨⟨-, hserver, htool⟩, -⟩ := (leaves_identityJson fun _ hs => hs).mp hidEncodable
    obtain ⟨⟨hrequestId, -⟩, -⟩ := (leaves_envelopeJson fun _ _ => trivial).mp hidShort
    have hdepth : (PyValue.ofJson arguments.plain).depth + 2 ≤ maxNesting :=
      (Nat.add_le_add_right (Nat.le_max_right _ _) 2).trans hnesting
    exact ⟨hserver, htool, hdepth, hframes, hnodes, hbytes, hcanonical, hmessage, hrequestId⟩
  · intro hlater
    have hdepth : max 1 (PyValue.ofJson arguments.plain).depth + 2 ≤ maxNesting := by
      have := hlater.nesting
      omega
    refine ⟨⟨?_, ?_, ?_, hdepth, hlater.nodes, hlater.stringBytes, hlater.canonicalBytes⟩, ?_, ?_, ?_,
      hlater.frames, hlater.messageBytes⟩
    · exact (leaves_identityJson fun _ hs => hs).mpr ⟨⟨hversion, hlater.serverIdentity, hlater.toolName⟩, hencodable⟩
    · exact (leaves_identityJson fun _ _ => trivial).mpr ⟨⟨trivial, trivial, trivial⟩, hshort⟩
    · exact (leaves_identityJson fun _ _ => trivial).mpr ⟨⟨trivial, trivial, trivial⟩, hfinite⟩
    · exact (leaves_envelopeJson fun _ hs => hs).mpr ⟨⟨trivial, hlater.toolName⟩, hencodable⟩
    · exact (leaves_envelopeJson fun _ _ => trivial).mpr ⟨⟨hlater.requestId, trivial⟩, hshort⟩
    · exact (leaves_envelopeJson fun _ _ => trivial).mpr ⟨⟨trivial, trivial⟩, hfinite⟩

/-! ## At the limits -/

/-- Containers nested so deep. -/
def nestedMapping : ℕ → PyValue
  | 0 => .text "leaf"
  | n + 1 => .ofFields [("next", nestedMapping n)]

/-- A snapshot, with the digests of its two documents. -/
def sampleSnapshot : McpServerToolSnapshot where
  protocolVersion := stableProtocolVersion
  serverIdentity := "server-a"
  toolName := "replace_record"
  serverCapabilities := .obj [("tools", .obj [])]
  toolSchema := .obj [("type", .text "object")]
  serverCapabilitiesHash := Platform.sample.sha256 "\x7b\"tools\":\x7b\x7d\x7d".toList
  toolSchemaHash := Platform.sample.sha256 "\x7b\"type\":\"object\"\x7d".toList

theorem sampleSnapshot_make : McpServerToolSnapshot.make .sample (.text stableProtocolVersion) (.text "server-a")
    (.ofFields [("tools", .dict [])]) (.text "replace_record") (.ofFields [("type", .text "object")]) =
      .ok sampleSnapshot := by
  rfl

/-- The request of a call with these arguments. -/
def sampleCall (arguments : PyValue) : Except PyException ExecutionRequest :=
  (McpStableAdmissionAdapter.shipped false).admitCall sampleSnapshot "op-limit" "attempt-limit" "idem-limit" arguments

theorem exists_of_isSome {ε α : Type} {x : Except ε α} (h : x.toOption.isSome = true) : ∃ a, x = .ok a := by
  cases x with
  | ok a => exact ⟨a, rfl⟩
  | error e => cases h

theorem admitted_accepted_sample : ∃ request fields line digest,
    sampleCall (.ofFields [("record", .int 7)]) = .ok request ∧ fingerprint .sample request = .ok digest ∧
      request.parameters.get? "arguments" = some (.dict (PyValue.ofJsonFields fields)) ∧
      (McpStdioLineCodec.default.encode JsonPlatform.sample.json (.dict (McpJsonRpcSession.requestEnvelope 1
        "tools/call" (McpStableToolExecutor.callParams sampleSnapshot.toolName fields)))).1 = .ok line := by
  obtain ⟨request, hrequest⟩ : ∃ request, sampleCall (.ofFields [("record", .int 7)]) = .ok request :=
    exists_of_isSome (by decide +kernel)
  obtain ⟨fields, hfields, hiff⟩ := admitted_accepted_iff .sample .sample _ _ _ _ _ _ request 1 hrequest
  obtain ⟨⟨digest, hdigest⟩, line, hline⟩ := hiff.mpr ⟨trivial, trivial, by decide, by decide, by decide,
    by decide +kernel, by decide +kernel, by decide +kernel, by decide +kernel⟩
  exact ⟨request, fields, line, digest, hrequest, hdigest, hfields, hline⟩

/-- **An admitted request without a fingerprint**: arguments as deep as admission lets them be. -/
theorem admitted_refused : McpServerToolSnapshot.make .sample (.text stableProtocolVersion) (.text "server-a")
      (.ofFields [("tools", .dict [])]) (.text "replace_record") (.ofFields [("type", .text "object")]) =
        .ok sampleSnapshot ∧
    ∃ request, sampleCall (nestedMapping 64) = .ok request ∧
      ¬ ∃ digest, fingerprint .sample request = .ok digest := by
  refine ⟨sampleSnapshot_make, ?_⟩
  have h : (sampleCall (nestedMapping 64)).toOption.any
      (fun request => (fingerprint .sample request).toOption.isNone) = true := by
    decide +kernel
  cases hcall : sampleCall (nestedMapping 64) with
  | error e =>
    rw [hcall] at h
    cases h
  | ok request =>
    rw [hcall] at h
    refine ⟨request, rfl, ?_⟩
    rintro ⟨digest, hdigest⟩
    simp [Except.toOption, hdigest] at h

end Rpr
