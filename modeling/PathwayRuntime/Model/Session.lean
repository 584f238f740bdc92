import PathwayRuntime.Model.Stdio
import PathwayRuntime.Python.Number

/-!
# The JSON-RPC session

* `PyObjects`: comparison of foreign objects with a text or an integer, and `repr`; `PyObjects.equalsText`,
  `PyObjects.equalsInt`: comparison of any value.
* `McpJsonRpcChannel`: what a session exchanges messages through; `McpStdioChannel.asChannel`.
* `McpJsonRpcSession` with `request`, `notify` and `validateResponse`; `SessionOutcome`: how a call
  went.
* `McpJsonRpcSession.records`: calls of one session, one after another.
-/

set_option autoImplicit false

namespace Rpr

/-- What operations on built-in values raise. -/
def PyException.Builtin (e : PyException) : Prop :=
  e.name ∈ ["TypeError", "ValueError", "RecursionError"] ∧
    ∀ cls ∈ e.bases, cls ∈ ["RuntimeError", "Exception", "BaseException"]

/-- `value == other` of a foreign object, `repr(value)` and `repr(sorted(keys))`. A foreign object may be equal to any
number of values, and may raise anything; a decoded value raises what built-in values raise. -/
structure PyObjects where
  objectEquals : String → PyText → PyValue → Except PyException Bool
  repr : PyValue → Except PyException PyText
  reprSorted : List PyKey → Except PyException PyText
  repr_error : ∀ j e, repr (PyValue.ofJson j) = .error e → e.Builtin
  reprSorted_error : ∀ keys e, (∀ key ∈ keys, ∃ s, key = .str s) → reprSorted keys = .error e → e.Builtin

/-- `value == s`, of a text. -/
def PyObjects.equalsText (objects : PyObjects) (s : PyText) : PyValue → Except PyException Bool
  | .str t => .ok (t == s)
  | .object typeName form => objects.objectEquals typeName form (.str s)
  | _ => .ok false

/-- `value == n`, of an integer. -/
def PyObjects.equalsInt (objects : PyObjects) (n : ℤ) : PyValue → Except PyException Bool
  | .bool b => .ok (b.toInt == n)
  | .int i => .ok (i == n)
  | .float x => .ok (x.isInt n)
  | .object typeName form => objects.objectEquals typeName form (.int n)
  | _ => .ok false

/-- A channel with states `κ`: its `exchange` may return any object. -/
structure McpJsonRpcChannel (κ : Type) where
  exchange : PyDict → κ → Except PyException PyValue × κ
  send : PyDict → κ → Except PyException Unit × κ

/-- A stdio channel as the session sees it. -/
def McpStdioChannel.asChannel {σ : Type} (J : JsonModule) (duplex : McpStdioDuplex σ) :
    McpJsonRpcChannel (McpStdioChannel σ) where
  exchange envelope c :=
    match McpStdioChannel.exchange J duplex (.dict envelope) c with
    | (.ok message, c) => (.ok (.dict (PyValue.ofJsonFields message)), c)
    | (.error e, c) => (.error e, c)
  send envelope c := McpStdioChannel.send J duplex (.dict envelope) c

/-- `McpJsonRpcRemoteError`. -/
def mcpJsonRpcRemoteError (code : ℤ) (message : PyText) : PyException :=
  .ofClass "McpJsonRpcRemoteError" ["McpTransportError", "RuntimeError"]
    (PyText.utf8 ("JSON-RPC error " ++ toString code ++ ": ") ++ message)

structure McpJsonRpcSession (κ : Type) where
  nextRequestId : ℕ
  channel : κ

/-- What a call did with the channel: the envelope it gave it and what came back. -/
inductive ChannelUse : Type
  | exchanged (envelope : PyDict) (r : Except PyException PyValue)
  | sent (envelope : PyDict) (r : Except PyException Unit)

/-- How a call went: what it returned or raised, its use of the channel, and the session after it. -/
structure SessionOutcome (κ α : Type) where
  returned : Except PyException α
  used : Option ChannelUse
  session : McpJsonRpcSession κ

namespace McpJsonRpcSession

variable {κ : Type} (objects : PyObjects) (channel : McpJsonRpcChannel κ)

/-- `_method`. -/
def methodValue (method : PyText) : Except PyException PyText :=
  if method.strip.length = 0 then .error (mcpTransportError "JSON-RPC method must be a non-empty string")
  else .ok method.strip

/-- `_params`. -/
def paramsValue : PyValue → Except PyException PyDict
  | .dict fields => .ok fields
  | _ => .error (mcpTransportError "JSON-RPC params must be an object")

/-- The keys of a mapping that are not in the list. -/
def extras (known : List String) (fields : PyDict) : List PyKey :=
  (fields.map Prod.fst).filter fun key => key ∉ known.map fun k => PyKey.str (.utf8 k)

/-- What a response with an `error` raises. -/
def remoteError : PyValue → PyException
  | .dict error =>
    match PyDict.get? error "code" with
    | some (.int code) =>
      match PyDict.get? error "message" with
      | some (.str message) =>
        if message.strip.length = 0 then
          mcpTransportError "JSON-RPC error message must be a non-empty string"
        else
          match extras ["code", "message", "data"] error with
          | [] => mcpJsonRpcRemoteError code message.strip
          | keys =>
            match objects.reprSorted keys with
            | .ok text => mcpTransportError
                (PyText.utf8 "JSON-RPC error contains unsupported members: " ++ text)
            | .error e => e
      | _ => mcpTransportError "JSON-RPC error message must be a non-empty string"
    | _ => mcpTransportError "JSON-RPC error code must be an integer"
  | _ => mcpTransportError "JSON-RPC error must be an object"

/-- `not isinstance(value, bool) and value == expected`. -/
def idMatches (value : PyValue) (expected : ℕ) : Except PyException Bool :=
  match value with
  | .bool _ => .ok false
  | value => objects.equalsInt expected value

/-- `value.get("jsonrpc") == "2.0"`. -/
def versionMatches (value : PyDict) : Except PyException Bool :=
  match value.get? "jsonrpc" with
  | some version => objects.equalsText "2.0" version
  | none => .ok false

/-- What the mismatch of an id raises. -/
def mismatch (expectedId : ℕ) (id : PyValue) : PyException :=
  match objects.repr (.int expectedId), objects.repr id with
  | .ok expected, .ok got =>
    mcpTransportError (PyText.utf8 "JSON-RPC response id mismatch: expected " ++ expected ++
      PyText.utf8 ", got " ++ got)
  | .error e, _ => e
  | _, .error e => e

/-- `_validate_response` of a mapping. -/
def validateFields (value : PyDict) (expectedId : ℕ) : Except PyException PyDict :=
  match versionMatches objects value with
  | .error e => .error e
  | .ok false => .error (mcpTransportError "JSON-RPC response version mismatch")
  | .ok true =>
    match value.get? "id" with
    | none => .error (mcpTransportError "JSON-RPC notification cannot satisfy a request")
    | some id =>
      match idMatches objects id expectedId with
      | .error e => .error e
      | .ok false => .error (mismatch objects expectedId id)
      | .ok true =>
        if (value.get? "result").isSome = (value.get? "error").isSome then
          .error (mcpTransportError "JSON-RPC response must contain exactly one of result or error")
        else
          match extras ["jsonrpc", "id", "result", "error"] value with
          | [] =>
            match value.get? "error" with
            | some error => .error (remoteError objects error)
            | none =>
              match value.get? "result" with
              | some (.dict result) => .ok result
              | _ => .error (mcpTransportError "MCP JSON-RPC result must be an object")
          | keys =>
            match objects.reprSorted keys with
            | .ok text => .error (mcpTransportError
                (PyText.utf8 "JSON-RPC response contains unsupported members: " ++ text))
            | .error e => .error e

/-- `_validate_response`. -/
def validateResponse (response : PyValue) (expectedId : ℕ) : Except PyException PyDict :=
  match response with
  | .dict value => validateFields objects value expectedId
  | _ => .error (mcpTransportError "JSON-RPC response must be an object")

/-- The envelope of a request. -/
def requestEnvelope (id : ℕ) (method : PyText) (params : PyDict) : PyDict :=
  [(.str "jsonrpc", .text "2.0"), (.str "id", .int id), (.str "method", .str method),
    (.str "params", .dict params)]

/-- The envelope of a notification. -/
def notifyEnvelope (method : PyText) (params : PyDict) : PyDict :=
  [(.str "jsonrpc", .text "2.0"), (.str "method", .str method), (.str "params", .dict params)]

/-- The exceptions of the channel that are raised as they are. -/
def passed : List String := ["McpTransportError", "TimeoutError", "ConnectionError", "OSError"]

/-- The other ones. -/
def wrapped (use : String) (e : PyException) : PyException :=
  e.escalate passed fun e => mcpTransportError (PyText.utf8 ("JSON-RPC channel " ++ use ++ " failed: ") ++ e.describe)

/-- `request`, once its arguments were checked. -/
def exchange (method : PyText) (params : PyDict) (s : McpJsonRpcSession κ) : SessionOutcome κ PyDict :=
  let envelope := requestEnvelope s.nextRequestId method params
  match channel.exchange envelope s.channel with
  | (.error e, ch) =>
    ⟨.error (wrapped "exchange" e), some (.exchanged envelope (.error e)), ⟨s.nextRequestId + 1, ch⟩⟩
  | (.ok response, ch) =>
    ⟨validateResponse objects response s.nextRequestId, some (.exchanged envelope (.ok response)),
      ⟨s.nextRequestId + 1, ch⟩⟩

/-- `request`. -/
def request (method : PyText) (params : PyValue) (s : McpJsonRpcSession κ) : SessionOutcome κ PyDict :=
  match methodValue method, paramsValue params with
  | .error e, _ => ⟨.error e, none, s⟩
  | .ok _, .error e => ⟨.error e, none, s⟩
  | .ok method, .ok params => exchange objects channel method params s

/-- `notify`. -/
def notify (method : PyText) (params : PyValue) (s : McpJsonRpcSession κ) : SessionOutcome κ Unit :=
  match methodValue method, paramsValue params with
  | .error e, _ => ⟨.error e, none, s⟩
  | .ok _, .error e => ⟨.error e, none, s⟩
  | .ok method, .ok params =>
    let envelope := notifyEnvelope method params
    match channel.send envelope s.channel with
    | (.error e, ch) =>
      ⟨.error (wrapped "notification" e), some (.sent envelope (.error e)), ⟨s.nextRequestId, ch⟩⟩
    | (.ok (), ch) => ⟨.ok (), some (.sent envelope (.ok ())), ⟨s.nextRequestId, ch⟩⟩

/-! ## Runs -/

/-- A call of a session. -/
inductive Call : Type
  | request (method : PyText) (params : PyValue)
  | notify (method : PyText) (params : PyValue)

/-- A call that was made: its use of the channel, and what it returned, a value or nothing. -/
structure Record where
  call : Call
  used : Option ChannelUse
  returned : Except PyException (Option PyDict)

/-- One call. -/
def perform (call : Call) (s : McpJsonRpcSession κ) : Record × McpJsonRpcSession κ :=
  match call with
  | .request method params =>
    let r := request objects channel method params s
    (⟨call, r.used, r.returned.map some⟩, r.session)
  | .notify method params =>
    let r := notify channel method params s
    (⟨call, r.used, r.returned.map fun _ => none⟩, r.session)

/-- Calls of a session, one after another, whatever each of them returned or raised. -/
def records : List Call → McpJsonRpcSession κ → List Record
  | [], _ => []
  | call :: calls, s =>
    (perform objects channel call s).1 :: records calls (perform objects channel call s).2

end McpJsonRpcSession

end Rpr
