import PathwayRuntime.Framing.Lines
import PathwayRuntime.Python.Exception
import PathwayRuntime.Python.Utf8

/-!
# MCP stdio: the line codec and the channel

* `JsonModule`: `json.dumps` and `json.loads` as the codec calls them.
* `McpStdioLineCodec` with `encode`, `feed` and `finish`; `feedAll`: chunks until the first error.
* `McpStdioDiagnostics`, `McpStdioEvent`, `McpStdioDuplex`.
* `McpStdioChannel` with `exchange` and `send`: a duplex with what went through it.
* `McpStdioChannel.run`: calls of one channel, one after another.
-/

set_option autoImplicit false

namespace Rpr

/-- `json` as the codec calls it: the text written for a mapping, absent when it has a lone surrogate,
and the value of a text. -/
structure JsonModule where
  dumps : PyDict → Except PyException (Option (List Char))
  loads : List Char → Except PyException Json

/-- A decoded JSON object. -/
abbrev JsonObject : Type := List (PyText × Json)

/-- `McpTransportError`, and its subclass. -/
def mcpTransportError (reason : PyText) : PyException :=
  .ofClass "McpTransportError" ["RuntimeError"] reason

def mcpStdioFramingError (reason : PyText) : PyException :=
  .ofClass "McpStdioFramingError" ["McpTransportError", "RuntimeError"] reason

/-- `_UTF8_BOM`. -/
def utf8Bom : Bytes := [0xef, 0xbb, 0xbf]

/-! ## The codec -/

structure McpStdioLineCodec where
  maxMessageBytes : ℕ
  buffer : Bytes
  poisoned : Bool
  positive : 0 < maxMessageBytes

namespace McpStdioLineCodec

/-- A new codec with this limit. -/
def fresh (maxMessageBytes : ℕ) (h : 0 < maxMessageBytes) : McpStdioLineCodec :=
  ⟨maxMessageBytes, [], false, h⟩

/-- `McpStdioLineCodec(max_message_bytes=...)`. -/
def make : PyValue → Except PyException McpStdioLineCodec
  | .int n =>
    if h : 0 < n.toNat then .ok (fresh n.toNat h)
    else .error (.valueError "max_message_bytes must be positive")
  | _ => .error (.valueError "max_message_bytes must be an integer")

/-- `_fail`. -/
def fail {α : Type} (reason : PyText) (codec : McpStdioLineCodec) :
    Except PyException α × McpStdioLineCodec :=
  (.error (mcpStdioFramingError reason), { codec with buffer := [], poisoned := true })

/-- What `_require_healthy` raises. -/
def unhealthy : PyException := mcpStdioFramingError "stdio codec is poisoned after a prior framing failure"

variable (J : JsonModule)

def encode (message : PyValue) (codec : McpStdioLineCodec) : Except PyException Bytes × McpStdioLineCodec :=
  if codec.poisoned then (.error unhealthy, codec)
  else
    match message with
    | .dict fields =>
      match J.dumps fields with
      | .error e =>
        if e.isAny ["TypeError", "ValueError"] then
          codec.fail (PyText.utf8 "stdio message is not strict JSON: " ++ e.text)
        else (.error e, codec)
      | .ok none => (.error unicodeEncodeError, codec)
      | .ok (some text) =>
        if utf8Bom <+: encodeUtf8 text then codec.fail "stdio message must not contain a UTF-8 BOM"
        else if (encodeUtf8 text).length > codec.maxMessageBytes then
          codec.fail "stdio message exceeds max_message_bytes"
        else (.ok (encodeUtf8 text ++ [lf]), codec)
    | _ => codec.fail "stdio message must be an object"

/-- Why a line has no message: `_fail` is called, or `json.loads` raises something else. -/
inductive LineError : Type
  | framing (reason : PyText)
  | raised (e : PyException)

/-- `_decode_line`. -/
def decodeLine (maxMessageBytes : ℕ) (line : Bytes) : Except LineError JsonObject :=
  if line = [] then .error (.framing "empty stdio lines are not allowed")
  else if line.length > maxMessageBytes then .error (.framing "stdio message exceeds max_message_bytes")
  else if utf8Bom <+: line then .error (.framing "stdio message must not contain a UTF-8 BOM")
  else
    match decodeUtf8 line with
    | none => .error (.framing "stdio message is not valid UTF-8")
    | some text =>
      match J.loads text with
      | .error e =>
        if e.isAny ["JSONDecodeError", "ValueError"] then
          .error (.framing (PyText.utf8 "stdio message is not strict JSON: " ++ e.text))
        else .error (.raised e)
      | .ok (.obj fields) => .ok fields
      | .ok _ => .error (.framing "stdio JSON message must be an object")

variable {J} in
/-- A line with a message is UTF-8 text within the limit that `json.loads` reads as an object. -/
theorem decodeLine_eq_ok {maxMessageBytes : ℕ} {line : Bytes} {m : JsonObject} :
    decodeLine J maxMessageBytes line = .ok m ↔ line ≠ [] ∧ line.length ≤ maxMessageBytes ∧
      ¬ utf8Bom <+: line ∧ ∃ text, decodeUtf8 line = some text ∧ J.loads text = .ok (.obj m) := by
  rw [decodeLine]
  by_cases hempty : line = []
  · simp [hempty]
  by_cases hlong : line.length > maxMessageBytes
  · simp [hempty, hlong]
  by_cases hbom : utf8Bom <+: line
  · simp [hempty, hlong, hbom]
  simp only [hempty, hlong, hbom, if_false, not_false_eq_true, ne_eq, Nat.le_of_not_lt hlong, true_and]
  cases decodeUtf8 line with
  | none => simp
  | some text =>
    simp only [Option.some.injEq, exists_eq_left']
    cases J.loads text with
    | error e => by_cases he : e.isAny ["JSONDecodeError", "ValueError"] = true <;> simp [he]
    | ok j => cases j <;> simp

/-- The loop of `feed` over the lines of the buffer; an error leaves the rest of the buffer. -/
def drain (maxMessageBytes : ℕ) : List Bytes → Bytes → Except (LineError × Bytes) (List JsonObject)
  | [], _ => .ok []
  | line :: lines, tail =>
    match decodeLine J maxMessageBytes line with
    | .error e => .error (e, Framing.join lf lines tail)
    | .ok message =>
      match drain maxMessageBytes lines tail with
      | .error e => .error e
      | .ok messages => .ok (message :: messages)

def feed (chunk : Bytes) (codec : McpStdioLineCodec) :
    Except PyException (List JsonObject) × McpStdioLineCodec :=
  if codec.poisoned then (.error unhealthy, codec)
  else if chunk = [] then (.ok [], codec)
  else
    let buffer := codec.buffer ++ chunk
    if lf ∉ buffer ∧ buffer.length > codec.maxMessageBytes then
      codec.fail "unterminated stdio message exceeds max_message_bytes"
    else
      -- The loop takes the bytes before each line feed; what has none stays in the buffer.
      let (lines, tail) := Framing.cut lf buffer
      match drain J codec.maxMessageBytes lines tail with
      | .error (.framing reason, _) => codec.fail reason
      | .error (.raised e, rest) => (.error e, { codec with buffer := rest })
      | .ok messages =>
        if tail.length > codec.maxMessageBytes then
          codec.fail "unterminated stdio message exceeds max_message_bytes"
        else (.ok messages, { codec with buffer := tail })

def finish (codec : McpStdioLineCodec) : Except PyException Unit × McpStdioLineCodec :=
  if codec.poisoned then (.error unhealthy, codec)
  else if codec.buffer ≠ [] then codec.fail "stdio stream ended with an unterminated message"
  else (.ok (), codec)

/-- Chunks fed in order until the first error: the messages delivered, and the codec. -/
def feedAll : List Bytes → McpStdioLineCodec → List JsonObject × McpStdioLineCodec
  | [], codec => ([], codec)
  | chunk :: chunks, codec =>
    match codec.feed J chunk with
    | (.ok messages, codec) => (messages ++ (feedAll chunks codec).1, (feedAll chunks codec).2)
    | (.error _, codec) => ([], codec)

end McpStdioLineCodec

/-! ## Diagnostics and events -/

structure McpStdioDiagnostics where
  maxBytes : ℕ
  buffer : Bytes
  truncated : Bool

/-- `McpStdioDiagnostics.feed`. -/
def McpStdioDiagnostics.feed (chunk : Bytes) (d : McpStdioDiagnostics) : McpStdioDiagnostics :=
  let remaining := d.maxBytes - d.buffer.length
  if remaining = 0 then { d with truncated := d.truncated || !chunk.isEmpty }
  else { d with
    buffer := d.buffer ++ chunk.take remaining
    truncated := d.truncated || chunk.length > remaining }

inductive McpStdioStream : Type
  | stdout
  | stderr
  deriving DecidableEq

/-- An event has data, or ends its stream. -/
structure McpStdioEvent where
  stream : McpStdioStream
  data : Bytes
  eof : Bool
  eof_iff : eof = true ↔ data = []

/-- What `write_stdin` does: it returns a number, or something else, or raises. -/
inductive WriteOutcome : Type
  | wrote (count : ℤ)
  | nonInteger
  | raised (e : PyException)

/-- What `read_event` does: it returns an event, or something else, or raises. -/
inductive ReadOutcome : Type
  | event (e : McpStdioEvent)
  | invalid
  | raised (e : PyException)

/-- A duplex with states `σ`. -/
structure McpStdioDuplex (σ : Type) where
  writeStdin : Bytes → σ → WriteOutcome × σ
  readEvent : σ → ReadOutcome × σ

/-! ## The channel -/

/-- The channel object, the state of its duplex, all bytes the writer accepted, and all bytes of
`stdout` that were read. -/
structure McpStdioChannel (σ : Type) where
  codec : McpStdioLineCodec
  diagnostics : McpStdioDiagnostics
  maxEventsPerExchange : ℕ
  stdoutEof : Bool
  stderrEof : Bool
  peer : σ
  stdin : Bytes
  stdout : Bytes

namespace McpStdioChannel

variable {σ : Type} (J : JsonModule) (duplex : McpStdioDuplex σ)

/-- `McpStdioChannel(...)`: nothing was written, and only what the codec buffers was read. -/
def create (codec : McpStdioLineCodec) (diagnostics : McpStdioDiagnostics) (maxEventsPerExchange : ℕ)
    (peer : σ) : McpStdioChannel σ where
  codec := codec
  diagnostics := diagnostics
  maxEventsPerExchange := maxEventsPerExchange
  stdoutEof := false
  stderrEof := false
  peer := peer
  stdin := []
  stdout := codec.buffer

/-- The exceptions of a write and of a read that are raised as they are. -/
def writePassed : List String :=
  ["McpTransportError", "BrokenPipeError", "TimeoutError", "ConnectionError", "OSError"]

def readPassed : List String := ["McpTransportError", "TimeoutError", "ConnectionError", "OSError"]

/-- The loop of `_write_message` over what is left of the payload; `fuel` bounds its turns. -/
def writeAll : ℕ → Bytes → McpStdioChannel σ → Except PyException Unit × McpStdioChannel σ
  | 0, _, c => (.ok (), c)
  | fuel + 1, payload, c =>
    if payload = [] then (.ok (), c)
    else
      match duplex.writeStdin payload c.peer with
      | (.raised e, peer) =>
        (.error (e.escalate writePassed fun e =>
          mcpTransportError (PyText.utf8 "MCP stdio write failed: " ++ e.describe)), { c with peer })
      | (.nonInteger, peer) =>
        (.error (mcpTransportError "MCP stdio writer returned a non-integer count"), { c with peer })
      | (.wrote count, peer) =>
        if count ≤ 0 ∨ (payload.length : ℤ) < count then
          (.error (mcpTransportError "MCP stdio writer returned an invalid byte count"), { c with peer })
        else writeAll fuel (payload.drop count.toNat)
          { c with peer, stdin := c.stdin ++ payload.take count.toNat }

/-- `_write_message`: every turn of the loop writes a byte. -/
def writeMessage (message : PyValue) (c : McpStdioChannel σ) :
    Except PyException Unit × McpStdioChannel σ :=
  match c.codec.encode J message with
  | (.error e, codec) => (.error e, { c with codec })
  | (.ok payload, codec) => writeAll duplex payload.length payload { c with codec }

/-- `_read_event`. -/
def readEvent (c : McpStdioChannel σ) : Except PyException McpStdioEvent × McpStdioChannel σ :=
  match duplex.readEvent c.peer with
  | (.raised e, peer) =>
    (.error (e.escalate readPassed fun e =>
      mcpTransportError (PyText.utf8 "MCP stdio read failed: " ++ e.describe)), { c with peer })
  | (.invalid, peer) =>
    (.error (mcpTransportError "MCP stdio reader returned an invalid event"), { c with peer })
  | (.event event, peer) => (.ok event, { c with peer })

/-- `_handle_stderr`. -/
def handleStderr (event : McpStdioEvent) (c : McpStdioChannel σ) :
    Except PyException Unit × McpStdioChannel σ :=
  if event.eof then (.ok (), { c with stderrEof := true })
  else if c.stderrEof then (.error (mcpTransportError "MCP stdio emitted stderr data after EOF"), c)
  else (.ok (), { c with diagnostics := c.diagnostics.feed event.data })

/-- The body of the loop of `exchange`: the message the event completes, if any. -/
def handleEvent (event : McpStdioEvent) (c : McpStdioChannel σ) :
    Except PyException (Option JsonObject) × McpStdioChannel σ :=
  match event.stream with
  | .stderr =>
    match handleStderr event c with
    | (.error e, c) => (.error e, c)
    | (.ok (), c) => (.ok none, c)
  | .stdout =>
    if event.eof then
      match c.codec.finish with
      | (.error e, codec) => (.error e, { c with stdoutEof := true, codec })
      | (.ok (), codec) =>
        (.error (mcpTransportError "MCP stdio stdout closed before a response"),
          { c with stdoutEof := true, codec })
    else
      match c.codec.feed J event.data with
      | (.error e, codec) => (.error e, { c with codec, stdout := c.stdout ++ event.data })
      | (.ok [], codec) => (.ok none, { c with codec, stdout := c.stdout ++ event.data })
      | (.ok [message], codec) => (.ok (some message), { c with codec, stdout := c.stdout ++ event.data })
      | (.ok _, codec) =>
        (.error (mcpTransportError "MCP stdio exchange produced multiple protocol messages"),
          { c with codec, stdout := c.stdout ++ event.data })

/-- The loop of `exchange` over the events it may still read. -/
def awaitMessage : ℕ → McpStdioChannel σ → Except PyException JsonObject × McpStdioChannel σ
  | 0, c => (.error (mcpTransportError "MCP stdio exchange exceeded max_events_per_exchange"), c)
  | events + 1, c =>
    match readEvent duplex c with
    | (.error e, c) => (.error e, c)
    | (.ok event, c) =>
      match handleEvent J event c with
      | (.error e, c) => (.error e, c)
      | (.ok (some message), c) => (.ok message, c)
      | (.ok none, c) => awaitMessage events c

/-- What `_require_open_stdout` raises. -/
def closedError : PyException := mcpTransportError "MCP stdio stdout is already closed"

def send (message : PyValue) (c : McpStdioChannel σ) : Except PyException Unit × McpStdioChannel σ :=
  if c.stdoutEof then (.error closedError, c) else writeMessage J duplex message c

def exchange (message : PyValue) (c : McpStdioChannel σ) :
    Except PyException JsonObject × McpStdioChannel σ :=
  match send J duplex message c with
  | (.error e, c) => (.error e, c)
  | (.ok (), c) => awaitMessage J duplex c.maxEventsPerExchange c

/-! ## Calls -/

/-- A call of the channel. -/
inductive Call : Type
  | exchange (message : PyValue)
  | send (message : PyValue)

/-- The message a call writes. -/
def Call.message : Call → PyValue
  | .exchange message | .send message => message

/-- The channel after one call. -/
def after (c : McpStdioChannel σ) : Call → McpStdioChannel σ
  | .exchange message => (exchange J duplex message c).2
  | .send message => (send J duplex message c).2

/-- The channel after some calls, one after another, whatever each of them returned or raised. -/
def run (calls : List Call) (c : McpStdioChannel σ) : McpStdioChannel σ :=
  calls.foldl (after J duplex) c

/-! ## A small instance -/

/-- Bytes that arrive on `stdout`. -/
def stdoutData (a : UInt8) (data : Bytes) : ReadOutcome :=
  .event ⟨.stdout, a :: data, false, by simp⟩

/-- A peer that accepts every write and sends these events. -/
def scripted : McpStdioDuplex (List ReadOutcome) where
  writeStdin data events := (.wrote data.length, events)
  readEvent
    | [] => (.invalid, [])
    | event :: events => (event, events)

end McpStdioChannel

end Rpr
