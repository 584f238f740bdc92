import PathwayRuntime.Model.Server
import PathwayRuntime.Model.Session
import PathwayRuntime.Python.Loaded

/-!
# The read-only server as the process behind a channel

* `ServerHost`: what the process runs on, with `ServerHost.Documented`.
* `ServerProcess` with `takeLine`: the loop of `run_stdio`, as its bytes arrive.
* `ServerHost.duplex`: the process as the peer of a channel.
* `RpcCall` with `message`, `answer` and `direct`: a call, the answer to it, and what `handle` makes of it without a
  channel.
-/

set_option autoImplicit false

namespace Rpr

/-! ## The process -/

/-- What the process runs on: `json`, the database at each line, `json.dumps(response, ensure_ascii=False,
separators=(",", ":"))` as far as it can be written, the bytes its `stdin` takes from a write, and how the bytes it
writes to `stdout` arrive among those of `stderr`. -/
structure ServerHost where
  json : JsonText
  readModel : ℕ → ReadModel
  dumps : Json → Option (List Char)
  accepts : Bytes → ℕ
  arrives : ℕ → Bytes → List McpStdioEvent

/-- The bytes of `stdout` in these events. -/
def stdoutBytes (events : List McpStdioEvent) : Bytes :=
  (events.filter fun e => e.stream = .stdout).flatMap McpStdioEvent.data

/-- The process: the server, the lines it has handled, the beginning of the next one, and what can be read of it. -/
structure ServerProcess where
  server : ReadOnlyRprMcpServer
  handled : ℕ
  input : Bytes
  output : List McpStdioEvent
  running : Bool

namespace ServerProcess

/-- A process that was started. -/
def started : ServerProcess := ⟨.fresh, 0, [], [], true⟩

/-- The process ends, and `stdout` with it. -/
def exited (p : ServerProcess) : ServerProcess :=
  { p with running := false, output := p.output ++ [⟨.stdout, [], true, by simp⟩] }

end ServerProcess

namespace ServerHost

variable (host : ServerHost)

/-- A line of `stdin`. -/
def turn (handled : ℕ) (text : List Char) : Turn :=
  ⟨.utf8 (String.ofList (text ++ ['\n'])), host.readModel handled, none⟩

/-- One turn of the loop of `run_stdio`; a line that is no text, and a response that cannot be written, end it. -/
def takeLine (p : ServerProcess) (line : Bytes) : ServerProcess :=
  if p.running = false then p
  else
    match decodeUtf8 line with
    | none => p.exited
    | some text =>
      let turn := host.turn p.handled text
      if turn.blank then p
      else
        match p.server.respond host.json turn.readModel turn.line with
        | (none, server) => { p with server, handled := p.handled + 1 }
        | (some answer, server) =>
          match host.dumps answer with
          | none => { p with server, handled := p.handled + 1 }.exited
          | some text => { p with
              server
              handled := p.handled + 1
              output := p.output ++ host.arrives p.handled (encodeUtf8 text ++ [lf]) }

/-- What is raised where the process has ended, and where nothing arrives. -/
def brokenPipeError : PyException := .ofClass "BrokenPipeError" ["ConnectionError", "OSError"] "stdin is closed"

def timeoutError : PyException := .ofClass "TimeoutError" ["OSError"] "stdio read timed out"

/-- The process as the peer of a channel: the lines a write completes are handled. -/
def duplex : McpStdioDuplex ServerProcess where
  writeStdin data p :=
    if p.running = false then (.raised brokenPipeError, p)
    else
      let (lines, tail) := Framing.cut lf (p.input ++ data.take (host.accepts data))
      (.wrote (host.accepts data), lines.foldl host.takeLine { p with input := tail })
  readEvent p :=
    match p.output with
    | [] => (.raised timeoutError, p)
    | event :: events => (.event event, { p with output := events })

/-- What is documented of it: `json.loads` skips the white space after a value, `allow_nan` changes what is written
only where there is a `NaN` or an infinity, a pipe takes a part of what is written to it, and what is written to
another arrives in order. -/
structure Documented (py : JsonPlatform) : Prop where
  loads : ∀ text j, Rpr.loads py defaultHooks text = .ok j →
    host.json.loads (.utf8 (String.ofList (text ++ ['\n']))) = .ok j
  dumps : ∀ fields text, Rpr.dumps py (PyValue.ofJsonFields fields) = .ok (some text) →
    host.dumps (.obj fields) = some text
  accepts : ∀ data, data ≠ [] → 0 < host.accepts data ∧ host.accepts data ≤ data.length
  arrives : ∀ handled bytes, stdoutBytes (host.arrives handled bytes) = bytes ∧
    ∀ e ∈ host.arrives handled bytes, e.eof = false

end ServerHost

/-! ## Calls, and what the server makes of them -/

/-- A call of a session, with a JSON object for its parameters. -/
inductive RpcCall : Type
  | request (method : PyText) (params : JsonObject)
  | notify (method : PyText) (params : JsonObject)

namespace RpcCall

def method : RpcCall → PyText
  | request method _ | notify method _ => method

def toCall : RpcCall → McpJsonRpcSession.Call
  | request method params => .request method (.dict (PyValue.ofJsonFields params))
  | notify method params => .notify method (.dict (PyValue.ofJsonFields params))

/-- The message the server reads. -/
def message (id : ℕ) : RpcCall → JsonObject
  | request method params => [("jsonrpc", .text "2.0"), ("id", .int id), ("method", .str method.strip),
      ("params", .obj params)]
  | notify method params => [("jsonrpc", .text "2.0"), ("method", .str method.strip), ("params", .obj params)]

end RpcCall

namespace ReadOnlyRprMcpServer

variable (J : JsonText) (M : ReadModel)

/-- The error an exception is answered with. -/
def errorOf : ServerError → JsonRpcError
  | .rpc e => e
  | .raised e => internalError e

/-- What a client is told of an error. -/
def remote (e : JsonRpcError) : PyException := mcpJsonRpcRemoteError e.code e.message.strip

/-- What a client is told of a result. -/
def resultOf (answer : Json) : PyDict :=
  match answer.get? "result" with
  | some (.obj fields) => PyValue.ofJsonFields fields
  | _ => []

/-- What `handle` makes of a message: its result, or what a client is told of its error. -/
def direct (message : JsonObject) (s : ReadOnlyRprMcpServer) :
    Except PyException (Option PyDict) × ReadOnlyRprMcpServer :=
  match s.handle J M (.obj message) with
  | (.ok answer, s) => (.ok (answer.map resultOf), s)
  | (.error e, s) => (.error (remote (errorOf e)), s)

end ReadOnlyRprMcpServer

/-- What calls return that are handled directly, and the server after them. -/
def directs (host : ServerHost) : List RpcCall → ℕ → ℕ → ReadOnlyRprMcpServer →
    List (Except PyException (Option PyDict))
  | [], _, _, _ => []
  | call :: calls, id, handled, s =>
    if call.method.strip.length = 0 then
      .error (mcpTransportError "JSON-RPC method must be a non-empty string") :: directs host calls id handled s
    else
      let (r, s) := s.direct host.json (host.readModel handled) (call.message id)
      match call with
      | .request .. => r :: directs host calls (id + 1) (handled + 1) s
      | .notify .. => .ok none :: directs host calls id (handled + 1) s

end Rpr
