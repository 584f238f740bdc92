import PathwayRuntime.Model.Outbox
import PathwayRuntime.Python.Utf8

/-!
# The HTTP mutation executor

* `HttpLibrary`: the built-in functions `HttpMutationExecutor` calls; `ParsedUrl`: what `urlparse`
  finds.
* `HttpEnv`: what the server, the network and the readback strategy do in one call;
  `JsonFieldReadback.verify`: the strategy the package ships.
* `HttpMutationExecutor.execute`, in three parts: `prepare` before `urlopen`, `answer` from it on, and
  the `except` clauses; `calls`: executions one after another.
-/

set_option autoImplicit false

namespace Rpr

/-! ## What the executor calls -/

/-- What `urlparse` finds; `port` is computed when it is read. -/
structure ParsedUrl where
  scheme : PyText
  hostname : Option PyText
  port : Except PyException (Option ℕ)
  username : Option PyText
  password : Option PyText
  fragment : PyText

/-- The `urllib.request.Request` of one dispatch. -/
structure HttpRequest where
  url : PyText
  data : Bytes
  headers : List (PyText × PyText)
  method : PyText

/-- Built-in functions: `json.dumps` and `.encode`, with sorted keys and `default=str` and without,
`str` of a value and of a key, `str.upper`, `str.lower`, `urlparse`, and the checks of `Request`. -/
structure HttpLibrary where
  canonical : PyValue → Except PyException (List Char)
  dumps : PyValue → Except PyException Bytes
  str : PyValue → Except PyException PyText
  keyStr : PyKey → Except PyException PyText
  upper : PyText → PyText
  lower : PyText → PyText
  urlparse : PyText → Except PyException ParsedUrl
  checkRequest : HttpRequest → Except PyException Unit

/-- An open response; reading the body or the headers may raise. -/
structure HttpResponse where
  status : ℤ
  headers : Except PyException (List (PyText × PyText))
  read : Except PyException Bytes

/-- A readback strategy: what `verify` returns for a status code, headers and a body, or what it, or
reading its result, raises. -/
abbrev ReadbackStrategy : Type :=
  ℤ → List (PyText × PyText) → Bytes → Except PyException ReadbackEvidence

/-- What happens around one call: the answer to `urlopen`, the `code` of an `HTTPError`, and the
strategy. -/
structure HttpEnv where
  urlopen : Except PyException HttpResponse
  errorCode : ℤ
  verify : ExecutionRequest → ReadbackStrategy

/-! ## The shipped strategy -/

/-- `JsonFieldReadback`. -/
structure JsonFieldReadback where
  responseField : String
  expectedParameter : String

/-- `value[field]` of a decoded value: only objects have text keys. -/
def jsonItem (field : String) : Json → Except PyException Json
  | .obj fields =>
    match fields.lookup (.utf8 field) with
    | some item => .ok item
    | none => .error (.keyError ("'" ++ field ++ "'"))
  | _ => .error (.typeError "indices must be integers or slices")

def unicodeDecodeError : PyException :=
  .ofClass "UnicodeDecodeError" ["UnicodeError", "ValueError"] "'utf-8' codec can't decode the body"

/-- `body.decode("utf-8")`. -/
def decodeBody (body : Bytes) : Except PyException (List Char) :=
  match decodeUtf8 body with
  | some text => .ok text
  | none => .error unicodeDecodeError

/-- The `try` block of `JsonFieldReadback.verify`: the observed and the expected value. -/
def JsonFieldReadback.found (strategy : JsonFieldReadback) (loads : List Char → Except PyException Json)
    (request : ExecutionRequest) (body : Bytes) : Except PyException (Json × PyValue) := do
  let text ← decodeBody body
  let value ← loads text
  let observed ← jsonItem strategy.responseField value
  let expected ← request.parameters.getItem strategy.expectedParameter
  .ok (observed, expected)

/-- The exceptions it answers with an unverified readback. -/
def readbackErrors : List String := ["UnicodeDecodeError", "JSONDecodeError", "KeyError", "TypeError"]

/-- `JsonFieldReadback.verify`, with `json.loads` and `==` given. -/
def JsonFieldReadback.verify (strategy : JsonFieldReadback) (loads : List Char → Except PyException Json)
    (eq : Json → PyValue → Bool) (request : ExecutionRequest) : ReadbackStrategy :=
  fun statusCode _ body =>
    let code : PyDict := [(.str "status_code", .int statusCode)]
    if ¬ (200 ≤ statusCode ∧ statusCode < 300) then .ok ⟨false, code, some "unexpected_status"⟩
    else
      match strategy.found loads request body with
      | .error e =>
        if e.isAny readbackErrors then
          .ok ⟨false, code, some (PyText.utf8 ("invalid_readback: " ++ e.name))⟩
        else .error e
      | .ok (observed, expected) =>
        .ok ⟨eq observed expected, code ++ [(.str "field", .text strategy.responseField),
          (.str "value", PyValue.ofJson observed)],
          if eq observed expected then none else some "readback_value_mismatch"⟩

/-! ## The executor -/

/-- `HttpMutationExecutor`: its options, with the origins normalized. -/
structure HttpMutationExecutor where
  allowedOrigins : List PyText
  allowInsecureHttp : Bool
  maxResponseBytes : ℕ

/-- `_results`: fingerprint and result by idempotency key. -/
abbrev HttpResults : Type := AList fun _ : String => String × ExecutionResult

/-- How one call went: what it returned or raised, what it called `urlopen` with, and the results kept. -/
structure HttpOutcome where
  returned : Except PyException ExecutionResult
  opened : Option HttpRequest
  results : HttpResults

/-- `headers[key] = value`. -/
def setHeader (key value : PyText) : List (PyText × PyText) → List (PyText × PyText)
  | [] => [(key, value)]
  | (k, v) :: headers => if k = key then (k, value) :: headers else (k, v) :: setHeader key value headers

/-- Truth of an optional text. -/
def present : Option PyText → Bool
  | some s => s.length != 0
  | none => false

section Executor

variable (py : Platform) (lib : HttpLibrary) (ex : HttpMutationExecutor)

/-- `_normalize_origin`. -/
def normalizeOrigin (value : PyText) : Except PyException PyText := do
  let parsed ← lib.urlparse value
  match parsed.hostname with
  | none => .error (.valueError "origin must include scheme and host")
  | some host =>
    if parsed.scheme.length = 0 ∨ host.length = 0 then
      .error (.valueError "origin must include scheme and host")
    else do
      let port ← parsed.port
      let port := match port with
        | some n => if n = 0 then none else some n
        | none => none
      let port := port.getD (if parsed.scheme = PyText.utf8 "https" then 443 else 80)
      .ok (lib.lower parsed.scheme ++ PyText.utf8 "://" ++ lib.lower host ++
        PyText.utf8 (":" ++ toString port))

/-- `HttpMutationExecutor(...)`: the origins are normalized. -/
def HttpMutationExecutor.make (allowedOrigins : List PyText) (allowInsecureHttp : Bool)
    (maxResponseBytes : ℕ) : Except PyException HttpMutationExecutor :=
  if allowedOrigins.isEmpty then .error (.valueError "allowed_origins is required")
  else do
    let origins ← allowedOrigins.mapM (normalizeOrigin lib)
    .ok ⟨origins, allowInsecureHttp, maxResponseBytes⟩

/-- `_validate_url`. -/
def validateUrl (url : PyText) : Except PyException Unit := do
  let parsed ← lib.urlparse url
  if present parsed.username || present parsed.password || parsed.fragment.length != 0 then
    .error (.valueError "userinfo and fragments are prohibited")
  else if parsed.scheme ∉ (if ex.allowInsecureHttp then ["https", "http"] else ["https"]).map PyText.utf8 then
    .error (.valueError "insecure or unsupported scheme")
  else do
    let origin ← normalizeOrigin lib url
    if origin ∉ ex.allowedOrigins then .error (.valueError "origin is not allow-listed")
    else .ok ()

/-- `_fingerprint`. -/
def httpFingerprint (request : ExecutionRequest) : Except PyException String := do
  let canonical ← lib.canonical (.ofFields [("operation_id", .text request.operationId),
    ("action", .text request.action), ("parameters", .dict request.parameters)])
  .ok (py.sha256 canonical)

/-- The supplied headers over the fixed ones, or the name of a forbidden one. -/
def addHeaders : PyDict → List (PyText × PyText) → Except PyException (PyText ⊕ List (PyText × PyText))
  | [], headers => .ok (.inr headers)
  | (key, value) :: supplied, headers => do
    let key ← lib.keyStr key
    let lower := lib.lower key
    if lower ∈ ["host", "content-length", "transfer-encoding", "connection"].map PyText.utf8 then
      .ok (.inl lower)
    else do
      let value ← lib.str value
      addHeaders supplied (setHeader key value headers)

/-- The `try` block up to `urlopen`: an early answer, or the request to send. -/
def HttpMutationExecutor.prepare (request : ExecutionRequest) :
    Except PyException (ExecutionResult ⊕ HttpRequest) := do
  let url ← lib.str (← request.parameters.getItem "url")
  let method ← lib.str ((request.parameters.get? "method").getD (.text "POST"))
  let method := lib.upper method
  if method ∉ ["POST", "PUT", "PATCH", "DELETE"].map PyText.utf8 then
    .ok (.inl ⟨.failed, [], none, some "unsupported_method"⟩)
  else do
    validateUrl lib ex url
    let payload ← lib.dumps ((request.parameters.get? "json").getD (.dict []))
    match (request.parameters.get? "headers").getD (.dict []) with
    | .dict supplied =>
      let headers ← addHeaders lib supplied [(PyText.utf8 "Content-Type", PyText.utf8 "application/json"),
        (PyText.utf8 "Accept", PyText.utf8 "application/json"),
        (PyText.utf8 "Idempotency-Key", PyText.utf8 request.idempotencyKey)]
      match headers with
      | .inl lower => .ok (.inl ⟨.failed, [], none, some (PyText.utf8 "forbidden_header:" ++ lower)⟩)
      | .inr headers => do
        let http : HttpRequest := ⟨url, payload, headers, method⟩
        lib.checkRequest http
        .ok (.inr http)
    | _ => .ok (.inl ⟨.failed, [], none, some "headers_must_be_mapping"⟩)

/-- The `try` block from `urlopen` on. -/
def HttpMutationExecutor.answer (env : HttpEnv) (request : ExecutionRequest) :
    Except PyException ExecutionResult := do
  let response ← env.urlopen
  let body ← response.read
  if body.length > ex.maxResponseBytes then
    .ok ⟨.writeStatusUnknown, [], none, some "response_too_large"⟩
  else do
    let headers ← response.headers
    let readback ← env.verify request response.status headers body
    .ok ⟨if readback.verified then .succeeded else .writeStatusUnknown,
      [(.str "status_code", .int response.status), (.str "response_bytes", .int body.length)],
      some readback, if readback.verified then none else readback.reason⟩

/-- The exceptions of the second clause; `socket.timeout` is `TimeoutError`. -/
def ambiguousErrors : List String := ["URLError", "TimeoutError", "OSError"]

/-- The `except` clauses; other exceptions leave `execute`. -/
def HttpMutationExecutor.handle (env : HttpEnv) (e : PyException) : Except PyException ExecutionResult :=
  if e.isA "HTTPError" then
    .ok ⟨.writeStatusUnknown, [(.str "status_code", .int env.errorCode)], none,
      some "http_error_after_dispatch"⟩
  else if e.isAny ambiguousErrors then
    .ok ⟨.writeStatusUnknown, [], none, some (PyText.utf8 ("transport_ambiguous:" ++ e.name))⟩
  else if e.isAny ["KeyError", "TypeError", "ValueError"] then
    .ok ⟨.failed, [], none,
      some (PyText.utf8 ("invalid_request:" ++ e.name ++ ":") ++ e.text)⟩
  else .error e

/-- The `try` statement around a block that ended in `x`. -/
def HttpMutationExecutor.guarded (env : HttpEnv) :
    Except PyException ExecutionResult → Except PyException ExecutionResult
  | .ok result => .ok result
  | .error e => HttpMutationExecutor.handle env e

/-- The end of `execute`: what the `try` statement returns is kept. -/
def HttpMutationExecutor.settle (env : HttpEnv) (key fingerprint : String) (opened : Option HttpRequest)
    (results : HttpResults) (x : Except PyException ExecutionResult) : HttpOutcome :=
  match HttpMutationExecutor.guarded env x with
  | .ok result => ⟨.ok result, opened, results.insert key (fingerprint, result)⟩
  | .error e => ⟨.error e, opened, results⟩

/-- `HttpMutationExecutor.execute`. -/
def HttpMutationExecutor.execute (env : HttpEnv) (request : ExecutionRequest) (results : HttpResults) :
    HttpOutcome :=
  match httpFingerprint py lib request with
  | .error e => ⟨.error e, none, results⟩
  | .ok fingerprint =>
    match results.lookup request.idempotencyKey with
    | some (known, result) =>
      ⟨.ok (if known ≠ fingerprint then ⟨.failed, [], none, some "idempotency_conflict"⟩ else result),
        none, results⟩
    | none =>
      if request.action ≠ "http_json_mutation" then
        ⟨.ok ⟨.failed, [], none, some "unsupported_action"⟩, none, results⟩
      else
        match ex.prepare lib request with
        | .ok (.inl early) => ⟨.ok early, none, results⟩
        | .ok (.inr http) =>
          HttpMutationExecutor.settle env request.idempotencyKey fingerprint (some http) results
            (ex.answer env request)
        | .error e => HttpMutationExecutor.settle env request.idempotencyKey fingerprint none results (.error e)

/-- One call of a run, with how it went. -/
structure HttpRecord where
  env : HttpEnv
  request : ExecutionRequest
  outcome : HttpOutcome

/-- Calls of `execute` on one executor, one after another. -/
def HttpMutationExecutor.calls : List (HttpEnv × ExecutionRequest) → HttpResults → List HttpRecord
  | [], _ => []
  | (env, request) :: rest, results =>
    let outcome := ex.execute py lib env request results
    ⟨env, request, outcome⟩ :: calls rest outcome.results

end Executor

end Rpr
