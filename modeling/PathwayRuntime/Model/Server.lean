import PathwayRuntime.Model.Admission
import PathwayRuntime.Model.Stdio

/-!
# The read-only MCP server

* `JsonText`: `json.loads` and `json.dumps` as the server calls them, and what a text holds as JSON.
* `ReadModel`: the answers of `SQLiteReadModel`, whatever the database holds.
* `ReadOnlyRprMcpServer` with `handle` and `callTool`.
* `runStdio`: the lines of `stdin`, one after another, with the responses written for each.
-/

set_option autoImplicit false

namespace Rpr

/-- `json` as the server calls it: `json.loads(text)`, the value a text holds if it is valid JSON, and
`json.dumps(value, ensure_ascii=False, sort_keys=True)`. -/
structure JsonText where
  loads : PyText → Except PyException Json
  value : PyText → Option Json
  dumps : Json → Except PyException PyText
  loads_ok : ∀ text j, loads text = .ok j → value text = some j
  loads_decodeError : ∀ text e, loads text = .error e → e.isA "JSONDecodeError" = true → value text = none
  dumps_error : ∀ j e, dumps j = .error e → e.isA "JSONDecodeError" = false

/-- `JsonRpcError`. -/
structure JsonRpcError where
  code : ℤ
  message : PyText
  data : Option JsonObject

/-- What `handle` raises. -/
inductive ServerError : Type
  | rpc (e : JsonRpcError)
  | raised (e : PyException)

def rpcError {α : Type} (code : ℤ) (message : PyText) : Except ServerError α :=
  .error (.rpc ⟨code, message, none⟩)

/-- What a tool raises: the exception, and `str(exc.args[0])` if it has arguments. -/
structure ToolError where
  exception : PyException
  firstArg : Option PyText
  isValueError : exception.isA "JSONDecodeError" = true → exception.isA "ValueError" = true

/-- The methods of `SQLiteReadModel`, by their arguments. -/
structure ReadModel where
  status : Except ToolError Json
  listPathways : (limit : Json) → Except ToolError Json
  getPathway : (pathwayId : Json) → Except ToolError Json
  getRouteVisibility : (pathwayId : Json) → Except ToolError Json
  getEvidence : (pathwayId limit : Json) → Except ToolError Json
  listUnresolved : (limit : Json) → Except ToolError Json

/-- `value == text`. -/
def Json.isText (text : String) : Json → Bool
  | .str s => s == .utf8 text
  | _ => false

/-- `value.get(key)`. -/
def JsonObject.get (fields : JsonObject) (key : String) : Json := (fields.lookup (.utf8 key)).getD .null

structure ReadOnlyRprMcpServer where
  initializeSeen : Bool
  initialized : Bool
  deriving DecidableEq

namespace ReadOnlyRprMcpServer

/-- A new server. -/
def fresh : ReadOnlyRprMcpServer := ⟨false, false⟩

/-! ## Tools -/

/-- A property of an input schema. -/
def schemaProperty (type : String) (bounds : List (String × ℤ)) : Json :=
  .obj ((.utf8 "type", .text type) :: bounds.map fun (key, bound) => (.utf8 key, .int bound))

/-- An entry of `_TOOLS`. -/
def toolEntry (name description : String) (properties : JsonObject) (required : List String) : Json :=
  .obj [("name", .text name), ("description", .text description),
    ("inputSchema", .obj ([(PyText.utf8 "type", Json.text "object"), (PyText.utf8 "properties", Json.obj properties)] ++
      (if required = [] then [] else [(PyText.utf8 "required", Json.arr (required.map Json.text))]) ++
      [(PyText.utf8 "additionalProperties", Json.bool false)]))]

/-- The schemas of the arguments. -/
def limitSchema (maximum : ℤ) : PyText × Json :=
  ("limit", schemaProperty "integer" [("minimum", 1), ("maximum", maximum)])

def pathwayIdSchema : PyText × Json := ("pathway_id", schemaProperty "string" [("minLength", 1)])

/-- `_TOOLS`. -/
def serverTools : List Json :=
  [toolEntry "rpr.get_status" "Return read-only RPR database status and pathway counts." [] [],
    toolEntry "rpr.list_pathways" "List RPR pathways without changing runtime state." [limitSchema 1000] [],
    toolEntry "rpr.get_pathway" "Return one RPR pathway definition and current state." [pathwayIdSchema]
      ["pathway_id"],
    toolEntry "rpr.get_route_visibility"
      "Return read-only Responsibility Routing visibility for one RPR pathway without granting Authority."
      [pathwayIdSchema] ["pathway_id"],
    toolEntry "rpr.get_evidence" "Return retained evidence events for one RPR pathway."
      [pathwayIdSchema, limitSchema 5000] ["pathway_id"],
    toolEntry "rpr.list_unresolved" "List pathways that are not completed, denied, or aborted."
      [limitSchema 1000] []]

/-- `", ".join(keys)`. -/
def joinKeys : List PyText → PyText
  | [] => ""
  | [key] => key
  | key :: keys => key ++ PyText.utf8 ", " ++ joinKeys keys

/-- A `ValueError` of a tool. -/
def toolValueError (text : PyText) : ToolError := ⟨.valueError text, some text, fun _ => rfl⟩

/-- `sorted(keys)`. -/
def sortedKeys (keys : List PyText) : List PyText := keys.insertionSort fun a b => a.le b = true

/-- `_require_keys`. -/
def requireKeys (arguments : JsonObject) (allowed required : List String) : Except ToolError Unit :=
  let keys := arguments.map Prod.fst
  let unexpected := sortedKeys (keys.filter (· ∉ allowed.map PyText.utf8))
  let missing := sortedKeys ((required.map PyText.utf8).filter (· ∉ keys))
  let unexpectedText := PyText.utf8 "unexpected arguments: " ++ joinKeys unexpected
  let missingText := PyText.utf8 "missing arguments: " ++ joinKeys missing
  match unexpected, missing with
  | [], [] => .ok ()
  | _ :: _, [] => .error (toolValueError unexpectedText)
  | [], _ :: _ => .error (toolValueError missingText)
  | _ :: _, _ :: _ => .error (toolValueError (unexpectedText ++ PyText.utf8 "; " ++ missingText))

/-- `arguments.get("limit", default)`. -/
def limitArgument (arguments : JsonObject) (default : ℤ) : Json :=
  (arguments.lookup (PyText.utf8 "limit")).getD (.int default)

/-- `_invoke`. -/
def invoke (M : ReadModel) (name : PyText) (arguments : JsonObject) : Except ToolError Json :=
  if name = "rpr.get_status" then do
    requireKeys arguments [] []
    M.status
  else if name = "rpr.list_pathways" then do
    requireKeys arguments ["limit"] []
    let pathways ← M.listPathways (limitArgument arguments 100)
    pure (.obj [("pathways", pathways)])
  else if name = "rpr.get_pathway" then do
    requireKeys arguments ["pathway_id"] ["pathway_id"]
    M.getPathway (arguments.get "pathway_id")
  else if name = "rpr.get_route_visibility" then do
    requireKeys arguments ["pathway_id"] ["pathway_id"]
    M.getRouteVisibility (arguments.get "pathway_id")
  else if name = "rpr.get_evidence" then do
    requireKeys arguments ["pathway_id", "limit"] ["pathway_id"]
    let events ← M.getEvidence (arguments.get "pathway_id") (limitArgument arguments 500)
    pure (.obj [("pathway_id", arguments.get "pathway_id"), ("events", events)])
  else if name = "rpr.list_unresolved" then do
    requireKeys arguments ["limit"] []
    let pathways ← M.listUnresolved (limitArgument arguments 100)
    pure (.obj [("pathways", pathways)])
  else .error (toolValueError (PyText.utf8 "unknown tool: " ++ name))

variable (J : JsonText)

/-- `_tool_result`. -/
def toolResult (value : Json) (isError : Bool) : Except ServerError Json :=
  match J.dumps value with
  | .error e => .error (.raised e)
  | .ok text =>
    let content : JsonObject := [("content", .arr [.obj [("type", .text "text"), ("text", .str text)]]),
      ("structuredContent", value)]
    .ok (.obj (if isError then content ++ [(PyText.utf8 "isError", Json.bool true)] else content))

/-- The `except` clauses of `_call_tool`. -/
def toolFailure (e : ToolError) : Except ServerError Json :=
  if e.exception.isA "KeyError" then
    match e.firstArg with
    | some pathwayId =>
      toolResult J (.obj [("error", .text "pathway_not_found"), ("pathway_id", .str pathwayId)]) true
    | none => .error (.raised (.ofClass "IndexError" ["LookupError"] "tuple index out of range"))
  else if e.exception.isAny ["ValueError", "ReadOnlyDatabaseError"] then
    toolResult J (.obj [("error", .text "invalid_request"), ("message", .str e.exception.text)]) true
  else .error (.raised e.exception)

/-- `_call_tool`. -/
def callTool (M : ReadModel) (params : Json) : Except ServerError Json :=
  match params with
  | .obj fields =>
    let keys := fields.map Prod.fst
    if PyText.utf8 "name" ∉ keys ∨ ∃ key ∈ keys, key ≠ .utf8 "name" ∧ key ≠ .utf8 "arguments" then
      rpcError (-32602) "tools/call params require name and may contain arguments"
    else
      match JsonObject.get fields "name" with
      | .str name =>
        if name.length = 0 then rpcError (-32602) "tool name must be a non-empty string"
        else
          match (fields.lookup (PyText.utf8 "arguments")).getD (.obj []) with
          | .obj arguments =>
            match invoke M name arguments with
            | .error e => toolFailure J e
            | .ok value => toolResult J value false
          | _ => rpcError (-32602) "tool arguments must be an object"
      | _ => rpcError (-32602) "tool name must be a non-empty string"
  | _ => rpcError (-32602) "tools/call params must be an object"

/-! ## Requests -/

/-- `_empty_params`. -/
def emptyParams : Json → Except ServerError Unit
  | .null => .ok ()
  | .obj [] => .ok ()
  | _ => rpcError (-32602) "params must be an empty object when provided"

/-- `_initialize`. -/
def initializeResult : Json → Except ServerError Json
  | .obj params =>
    if (JsonObject.get params "protocolVersion").isText stableProtocolVersion then
      .ok (.obj [("protocolVersion", .text stableProtocolVersion),
        ("capabilities", .obj [("tools", .obj [("listChanged", .bool false)])]),
        ("serverInfo", .obj [("name", .text "responsibility-pathway-runtime"), ("version", .text "0.1.0a6")]),
        ("instructions", .text ("Read-only RPR inspection server for a trusted local MCP client. It cannot " ++
          "approve, execute, reconcile, resume, or mutate responsibility pathways."))])
    else rpcError (-32602) (PyText.utf8 ("unsupported protocolVersion; expected " ++ stableProtocolVersion))
  | _ => rpcError (-32602) "initialize params must be an object"

/-- `_response`. -/
def response (requestId result : Json) : Json :=
  .obj [("jsonrpc", .text "2.0"), ("id", requestId), ("result", result)]

/-- `_error_response`. -/
def errorResponse (requestId : Json) (e : JsonRpcError) : Json :=
  let payload : JsonObject := [("code", .int e.code), ("message", .str e.message)]
  .obj [("jsonrpc", .text "2.0"), ("id", requestId),
    ("error", .obj (match e.data with
      | some data => payload ++ [(PyText.utf8 "data", Json.obj data)]
      | none => payload))]

/-- `handle` of a request with this method. -/
def handleMethod (M : ReadModel) (method : PyText) (requestId params : Json) (s : ReadOnlyRprMcpServer) :
    Except ServerError (Option Json) × ReadOnlyRprMcpServer :=
  if method = "notifications/initialized" then
    match emptyParams params with
    | .error e => (.error e, s)
    | .ok () =>
      if s.initializeSeen = false then (rpcError (-32002) "initialize request has not completed", s)
      else (.ok none, { s with initialized := true })
  else if method = "initialize" then
    match initializeResult params with
    | .error e => (.error e, s)
    | .ok result => (.ok (some (response requestId result)), { s with initializeSeen := true })
  else if s.initialized = false then
    (rpcError (-32002) "server has not received notifications/initialized", s)
  else if method = "ping" then
    (do emptyParams params; pure (some (response requestId (.obj []))), s)
  else if method = "tools/list" then
    (do emptyParams params; pure (some (response requestId (.obj [("tools", .arr serverTools)]))), s)
  else if method = "tools/call" then
    (do let result ← callTool J M params; pure (some (response requestId result)), s)
  else (rpcError (-32601) (PyText.utf8 "method not found: " ++ method), s)

/-- `handle`. -/
def handle (M : ReadModel) (request : Json) (s : ReadOnlyRprMcpServer) :
    Except ServerError (Option Json) × ReadOnlyRprMcpServer :=
  match request with
  | .obj fields =>
    if (JsonObject.get fields "jsonrpc").isText "2.0" = false then
      (rpcError (-32600) "jsonrpc must be '2.0'", s)
    else
      match JsonObject.get fields "method" with
      | .str method =>
        if method.length = 0 then (rpcError (-32600) "method must be a non-empty string", s)
        else handleMethod J M method (JsonObject.get fields "id") (JsonObject.get fields "params") s
      | _ => (rpcError (-32600) "method must be a non-empty string", s)
  | _ => (rpcError (-32600) "request must be a JSON object", s)

/-! ## The loop -/

/-- The errors of the loop itself. -/
def parseError (e : PyException) : JsonRpcError := ⟨-32700, "parse error", some [("detail", .str e.text)]⟩

def internalError (e : PyException) : JsonRpcError :=
  ⟨-32603, "internal error", some [("type", .text e.name)]⟩

/-- `request_id` and `is_notification` of a decoded line. -/
def requestIdOf : Json → Json
  | .obj fields => JsonObject.get fields "id"
  | _ => .null

def isNotification : Json → Bool
  | .obj fields => (fields.lookup (PyText.utf8 "id")).isNone
  | _ => false

/-- The `try` statement of `run_stdio`: the response to a line, if there is one. -/
def respond (M : ReadModel) (line : PyText) (s : ReadOnlyRprMcpServer) : Option Json × ReadOnlyRprMcpServer :=
  match J.loads line with
  | .error e =>
    if e.isA "JSONDecodeError" then (some (errorResponse .null (parseError e)), s)
    else (some (errorResponse .null (internalError e)), s)
  | .ok request =>
    let failed := fun e => if isNotification request then none else some (errorResponse (requestIdOf request) e)
    match s.handle J M request with
    | (.ok answer, s) => (answer, s)
    | (.error (.rpc e), s) => (failed e, s)
    | (.error (.raised e), s) =>
      if e.isA "JSONDecodeError" then (some (errorResponse .null (parseError e)), s)
      else (failed (internalError e), s)

end ReadOnlyRprMcpServer

/-- A line, with what the database holds as it is handled, and what writing a response would raise. -/
structure Turn where
  line : PyText
  readModel : ReadModel
  writeError : Option PyException

/-- `not raw_line.strip()`. -/
def Turn.blank (turn : Turn) : Bool := turn.line.strip.length = 0

variable (J : JsonText)

/-- The server after a line. -/
def Turn.after (turn : Turn) (s : ReadOnlyRprMcpServer) : ReadOnlyRprMcpServer :=
  if turn.blank then s else (s.respond J turn.readModel turn.line).2

/-- What is written for every line that was read, and what ended the run, if anything did. -/
structure StdioRun where
  written : List (List Json)
  raised : Option PyException

/-- One more line before a run. -/
def StdioRun.cons (responses : List Json) (run : StdioRun) : StdioRun :=
  { run with written := responses :: run.written }

/-- `run_stdio`. -/
def runStdio : List Turn → ReadOnlyRprMcpServer → StdioRun
  | [], _ => ⟨[], none⟩
  | turn :: turns, s =>
    if turn.blank then (runStdio turns s).cons []
    else
      match s.respond J turn.readModel turn.line with
      | (none, s) => (runStdio turns s).cons []
      | (some answer, s) =>
        match turn.writeError with
        | none => (runStdio turns s).cons [answer]
        | some e => ⟨[[]], some e⟩

end Rpr
