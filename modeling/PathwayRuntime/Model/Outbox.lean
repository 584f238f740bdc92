import Mathlib.Data.List.AList
import PathwayRuntime.Model.Attempts
import PathwayRuntime.Python.Exception
import PathwayRuntime.Resume.Machine

/-!
# The message outbox

* `PyLibrary`: the built-in functions the message executor calls on values it was given.
* `OutboxOp`: the transactions of `SQLiteOutbox` and `transport.send`; `outbox`: what they do.
* `OutboundMessageExecutor.execute`: the program over them.
* `deliveries`: calls of any number of executors on one database, interleaved, with crashes.
-/

set_option autoImplicit false

namespace Rpr

open Resume

/-- Built-in functions of arbitrary values: `json.dumps` with sorted keys and encoded, with compact
separators (`canonical`) and with the default ones, `json.loads`, `str`, `bool` and `dict`. -/
structure PyLibrary where
  canonical : PyValue → Except PyException (List Char)
  dumps : PyValue → Except PyException (List Char)
  loads : List Char → Except PyException Json
  str : PyValue → Except PyException PyText
  bool : PyValue → Except PyException Bool
  dict : PyValue → Except PyException PyDict

/-! ## The table -/

/-- A row of `message_outbox`. -/
structure OutboxRow where
  fingerprint : String
  status : String
  receiptJson : Option (List Char)
  deriving DecidableEq

/-- The table, by idempotency key. -/
abbrev Outbox : Type := AList fun _ : String => OutboxRow

/-- The transactions of `SQLiteOutbox`, and the transport. -/
inductive OutboxOp : Type
  | begin (key fingerprint : String)
  | finish (key status : String) (receipt : Option (List Char))
  | send (recipient subject body : PyText) (key : String)

/-- What an operation gives back, or what it raises. -/
def OutboxOp.Res : OutboxOp → Type
  | .begin .. => Except PyException (Bool × Option (List Char))
  | .finish .. => Except PyException Unit
  | .send .. => Except PyException PyValue

/-- What the environment decides: whether a transaction raises, and then whether it was committed
all the same, and what the transport does. -/
structure OutboxOracle where
  failure : Option (PyException × Bool)
  transport : Except PyException PyValue

/-- An executed operation. -/
inductive OutboxStep : Type
  | begin (key fingerprint : String) (r : Except PyException (Bool × Option (List Char)))
  | finish (key status : String) (receipt : Option (List Char)) (r : Except PyException Unit)
  | send (recipient subject body : PyText) (key : String) (r : Except PyException PyValue)

namespace Outbox

/-- The transaction of `SQLiteOutbox.begin`: a row is inserted unless the key has one. -/
def begin (key fingerprint : String) (o : OutboxOracle) (w : Outbox) :
    Except PyException (Bool × Option (List Char)) × Outbox :=
  match w.lookup key with
  | some row =>
    match o.failure with
    | some (e, _) => (.error e, w)
    | none =>
      if row.fingerprint ≠ fingerprint then
        (.error (.valueError "outbox idempotency conflict"), w)
      else (.ok (true, row.receiptJson), w)
  | none =>
    match o.failure with
    | some (e, committed) =>
      (.error e, if committed then w.insert key ⟨fingerprint, "prepared", none⟩ else w)
    | none => (.ok (false, none), w.insert key ⟨fingerprint, "prepared", none⟩)

/-- The row of a key, updated. -/
def update (key status : String) (receipt : Option (List Char)) (w : Outbox) : Outbox :=
  match w.lookup key with
  | some row => w.insert key ⟨row.fingerprint, status, receipt⟩
  | none => w

/-- The transaction of `SQLiteOutbox.finish`. -/
def finish (key status : String) (receipt : Option (List Char)) (o : OutboxOracle) (w : Outbox) :
    Except PyException Unit × Outbox :=
  match o.failure with
  | some (e, committed) => (.error e, if committed then w.update key status receipt else w)
  | none => (.ok (), w.update key status receipt)

end Outbox

/-- The operations on the shared table. -/
def outbox : Machine OutboxOp OutboxOp.Res Outbox OutboxOracle OutboxStep where
  exec
    | .begin key fingerprint, o, w => Outbox.begin key fingerprint o w
    | .finish key status receipt, o, w => Outbox.finish key status receipt o w
    | .send .., o, w => (o.transport, w)
  label
    | .begin key fingerprint, r => .begin key fingerprint r
    | .finish key status receipt, r => .finish key status receipt r
    | .send recipient subject body key, r => .send recipient subject body key r

abbrev OutboxProg : Type → Type := Prog OutboxOp OutboxOp.Res PyException

/-- One operation, raising what it raises. -/
def OutboxProg.begin (key fingerprint : String) : OutboxProg (Bool × Option (List Char)) :=
  .call (.begin key fingerprint) Prog.ofExcept

def OutboxProg.finish (key status : String) (receipt : Option (List Char)) : OutboxProg Unit :=
  .call (.finish key status receipt) Prog.ofExcept

def OutboxProg.send (recipient subject body : PyText) (key : String) : OutboxProg PyValue :=
  .call (.send recipient subject body key) Prog.ofExcept

/-! ## The executor -/

section Executor

variable (py : Platform) (lib : PyLibrary)

/-- `SQLiteOutbox._fingerprint`. -/
def messageFingerprint (request : ExecutionRequest) : Except PyException String := do
  let canonical ← lib.canonical (.ofFields [("action", .text request.action),
    ("parameters", .dict request.parameters)])
  return py.sha256 canonical

/-- `SQLiteOutbox.begin`. -/
def SQLiteOutbox.begin (request : ExecutionRequest) : OutboxProg (Bool × Option Json) := do
  let fingerprint ← Prog.ofExcept (messageFingerprint py lib request)
  let (replayed, receipt) ← OutboxProg.begin request.idempotencyKey fingerprint
  match receipt with
  | none => return (replayed, none)
  | some text => return (replayed, some (← Prog.ofExcept (lib.loads text)))

/-- `SQLiteOutbox.finish`. -/
def SQLiteOutbox.finish (key status : String) (receipt : Option PyDict) : OutboxProg Unit :=
  match receipt with
  | none => OutboxProg.finish key status none
  | some receipt => do
    let encoded ← Prog.ofExcept (lib.dumps (.dict receipt))
    OutboxProg.finish key status (some encoded)

/-- `OutboundMessageExecutor._from_receipt`. -/
def fromReceipt (receipt : PyDict) : Except PyException ExecutionResult := do
  let accepted ← lib.bool ((receipt.get? "accepted").getD .none)
  let durable ← if accepted then lib.bool ((receipt.get? "durable").getD .none) else .ok false
  let verified ← if durable then do
      let messageId ← lib.str ((receipt.get? "message_id").getD (.text ""))
      .ok (messageId.strip.length != 0)
    else .ok false
  let reason : Option PyText := if verified then none else some "durable_delivery_receipt_missing"
  return ⟨if verified then .succeeded else .writeStatusUnknown,
    [(.str "delivery_receipt", .dict receipt)], some ⟨verified, receipt, reason⟩, reason⟩

/-- `_from_receipt` of what was stored: `.get` is a method of mappings. -/
def fromStored : Json → Except PyException ExecutionResult
  | .obj fields => fromReceipt lib (PyValue.ofJsonFields fields)
  | _ => .error (.attributeError "object has no attribute 'get'")

/-- The receipt kept of what the transport returned. -/
def receiptValue (raw : PyDict) : Except PyException PyDict := do
  let messageId ← lib.str ((raw.get? "message_id").getD (.text ""))
  let accepted ← lib.bool ((raw.get? "accepted").getD .none)
  let durable ← lib.bool ((raw.get? "durable").getD .none)
  return [(.str "message_id", .str messageId.strip), (.str "accepted", .bool accepted),
    (.str "durable", .bool durable)]

/-- What follows the row that was prepared. -/
def OutboundMessageExecutor.dispatch (request : ExecutionRequest) : OutboxProg ExecutionResult := do
  let recipient ← Prog.ofExcept (do lib.str (← request.parameters.getItem "recipient"))
  let subject ← Prog.ofExcept (lib.str ((request.parameters.get? "subject").getD (.text "")))
  let body ← Prog.ofExcept (do lib.str (← request.parameters.getItem "body"))
  if recipient.strip.length = 0 ∨ body.length = 0 then do
    SQLiteOutbox.finish lib request.idempotencyKey "failed" none
    return ⟨.failed, [], none, some "recipient_and_body_required"⟩
  else do
    let answer ← OutboxProg.send recipient.strip subject body request.idempotencyKey
    let receipt ← Prog.ofExcept (do receiptValue lib (← lib.dict answer))
    SQLiteOutbox.finish lib request.idempotencyKey "finished" (some receipt)
    Prog.ofExcept (fromReceipt lib receipt)

/-- The `try` block of `OutboundMessageExecutor.execute`. -/
def OutboundMessageExecutor.attempt (request : ExecutionRequest) : OutboxProg ExecutionResult := do
  let (replayed, receipt) ← SQLiteOutbox.begin py lib request
  if replayed then
    match receipt with
    | none => return ⟨.writeStatusUnknown, [], none, some "outbox_prepared_without_receipt"⟩
    | some receipt => Prog.ofExcept (fromStored lib receipt)
  else OutboundMessageExecutor.dispatch lib request

/-- Its `except` clauses. -/
def OutboundMessageExecutor.handle (e : PyException) : OutboxProg ExecutionResult :=
  if e.isAny ["OSError", "TimeoutError", "ConnectionError"] then
    return ⟨.writeStatusUnknown, [], none,
      some (PyText.utf8 ("message_transport_ambiguous:" ++ e.name))⟩
  else if e.isA "Exception" then
    return ⟨.failed, [], none, some (PyText.utf8 ("message_executor_error:" ++ e.name))⟩
  else .raise e

/-- `OutboundMessageExecutor.execute`. -/
def OutboundMessageExecutor.execute (request : ExecutionRequest) : OutboxProg ExecutionResult :=
  if request.action ≠ "send_message" then return ⟨.failed, [], none, some "unsupported_action"⟩
  else Prog.tryCatch (OutboundMessageExecutor.attempt py lib request) OutboundMessageExecutor.handle

/-- Calls of `execute` on a table that holds `w`, interleaved operation by operation. -/
def deliveries (w : Outbox) (acts : List (Machine.Action ExecutionRequest OutboxOracle)) :
    Hist ExecutionRequest Outbox OutboxStep :=
  (outbox.schedule (OutboundMessageExecutor.execute py lib) (.idle ⟨w, []⟩ 0) acts).hist

end Executor

/-- The key of a send. -/
def OutboxStep.sent : OutboxStep → Option String
  | .send _ _ _ key _ => some key
  | _ => none

/-- The keys `transport.send` was invoked with, newest first. -/
def sends (h : Hist ExecutionRequest Outbox OutboxStep) : List String :=
  h.trace.filterMap fun e => e.step.sent

end Rpr
