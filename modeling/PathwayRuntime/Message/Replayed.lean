import PathwayRuntime.Ledger.Fingerprint
import PathwayRuntime.Message.Denied

/-!
# What a replay returns

Calls of `execute` on one outbox, one after another.

* `Delivered`: what such calls return; `Called`: what one of them does.
* `Faithful`: a replay is the replay of the same operation, with the status that was returned first.
* **`faithful_iff`**: which replays are.
-/

set_option autoImplicit false

namespace Rpr

open Resume

/-! ## Calls one after another -/

/-- What the environment decides during a call: whether `begin` raises, and was committed all the same, what
the transport does, and the same of `finish`. -/
structure CallEnvironment where
  opened : Option (PyException × Bool)
  transport : Except PyException PyValue
  closed : Option (PyException × Bool)

/-- The decisions, in the order of the operations. -/
def CallEnvironment.oracles (env : CallEnvironment) : List OutboxOracle :=
  [⟨env.opened, env.transport⟩, ⟨env.closed, env.transport⟩, ⟨env.closed, env.transport⟩]

/-- A call that returned, with the table before and after it. -/
structure Delivery where
  request : ExecutionRequest
  environment : CallEnvironment
  before : Outbox
  after : Outbox
  steps : List OutboxStep
  result : ExecutionResult

/-- The call was answered from a row. -/
def Delivery.Replayed (d : Delivery) : Prop :=
  ∃ key fingerprint text, OutboxStep.begin key fingerprint (.ok (true, text)) ∈ d.steps

/-- The call prepared the row of a key. -/
def Delivery.Prepared (d : Delivery) (key : String) : Prop :=
  d.before.lookup key = none ∧ ∃ row, d.after.lookup key = some row

/-- The first of the calls under a key. -/
def FirstUnder (past : List Delivery) (key : String) (f : Delivery) : Prop :=
  ∃ newer older, past = newer ++ f :: older ∧ f.request.idempotencyKey = key ∧
    ∀ g ∈ older, g.request.idempotencyKey ≠ key

section Runs

variable (py : Platform) (lib : PyLibrary)

/-- Calls on a new outbox, newest first. -/
inductive Delivered : List Delivery → Outbox → Prop
  | nil : Delivered [] ∅
  | cons {past : List Delivery} {w : Outbox} (h : Delivered past w) (request : ExecutionRequest)
      (environment : CallEnvironment) {r : ExecutionResult} {hist : Hist ExecutionRequest Outbox OutboxStep}
      (hrun : outbox.run past.length request (OutboundMessageExecutor.execute py lib request) environment.oracles
        ⟨w, []⟩ = (.returned r, hist)) :
      Delivered (⟨request, environment, w, hist.world, hist.trace.map Entry.step, r⟩ :: past) hist.world

/-- The parameters are written as one JSON text. -/
def SameParameters (a b : PyDict) : Prop :=
  ∃ text, lib.canonical (.dict a) = .ok text ∧ lib.canonical (.dict b) = .ok text

/-- A call that is answered from a row is answered from the one of its operation, with the status that the
first call under its key returned. -/
def Faithful (past : List Delivery) : Prop :=
  ∀ newer d older, past = newer ++ d :: older → d.Replayed →
    (∃ p ∈ older, p.Prepared d.request.idempotencyKey ∧ p.request.operationId = d.request.operationId ∧
      p.request.action = d.request.action ∧ SameParameters lib p.request.parameters d.request.parameters) ∧
    ∃ f, FirstUnder older d.request.idempotencyKey f ∧ d.result.status = f.result.status

/-! ## What decides the status -/

/-- The status after an exception. -/
def handledStatus (e : PyException) : ExecutionStatus :=
  if e.isAny ["OSError", "TimeoutError", "ConnectionError"] then .writeStatusUnknown else .failed

/-- The status a row is answered with. -/
def receiptStatus : Option (List Char) → ExecutionStatus
  | none => .writeStatusUnknown
  | some text =>
    match storedResult lib text with
    | .ok r => r.status
    | .error e => handledStatus e

/-- What a transaction raises. -/
def failureOf : Option (PyException × Bool) → Except PyException Unit
  | some (e, _) => .error e
  | none => .ok ()

/-- The recipient and the body. -/
def messageFields (request : ExecutionRequest) : Except PyException (PyText × PyText) := do
  let recipient ← (do lib.str (← request.parameters.getItem "recipient"))
  let _ ← lib.str ((request.parameters.get? "subject").getD (.text ""))
  let body ← (do lib.str (← request.parameters.getItem "body"))
  return (recipient, body)

/-- What a call stores in a row it prepared: nothing without a recipient or a body. -/
def dispatchedReceipt (request : ExecutionRequest) (env : CallEnvironment) :
    Except PyException (Option (List Char)) := do
  let fields ← messageFields lib request
  if fields.1.strip.length = 0 ∨ fields.2.length = 0 then do
    failureOf env.closed
    return none
  else do
    let answer ← env.transport
    let text ← writtenReceipt lib answer
    failureOf env.closed
    return some text

/-- What a call under a new key stores. -/
def newReceipt (request : ExecutionRequest) (env : CallEnvironment) : Except PyException (Option (List Char)) := do
  let _ ← messageFingerprint py lib request
  failureOf env.opened
  dispatchedReceipt lib request env

/-- A first call with another action, without a recipient or a body, or in which something raises that is no
`OSError`. -/
def FailsFirst (request : ExecutionRequest) (env : CallEnvironment) : Prop :=
  request.action ≠ "send_message" ∨ newReceipt py lib request env = .ok none ∨
    ∃ e, newReceipt py lib request env = .error e ∧ e.isAny ["OSError", "TimeoutError", "ConnectionError"] = false

/-- A first call in which an `OSError` is raised. -/
def UnknownFirst (request : ExecutionRequest) (env : CallEnvironment) : Prop :=
  request.action = "send_message" ∧ ∃ e, newReceipt py lib request env = .error e ∧
    e.isAny ["OSError", "TimeoutError", "ConnectionError"] = true

/-- The row holds the receipt of an accepted and durable message. -/
def OutboxRow.Verified (row : OutboxRow) : Prop :=
  ∃ text r, row.receiptJson = some text ∧ storedResult lib text = .ok r ∧ r.status = .succeeded

/-- A call that is answered from a row has the operation of the call that prepared it, and the first call under its
key neither fails nor, the row verified, meets an `OSError`. -/
def Replayable (past : List Delivery) : Prop :=
  ∀ newer d older, past = newer ++ d :: older → d.Replayed →
    (∃ p ∈ older, p.Prepared d.request.idempotencyKey ∧ p.request.operationId = d.request.operationId) ∧
    ∃ f, FirstUnder older d.request.idempotencyKey f ∧ ¬ FailsFirst py lib f.request f.environment ∧
      (UnknownFirst py lib f.request f.environment →
        ∀ row, d.before.lookup d.request.idempotencyKey = some row → ¬ row.Verified lib)

end Runs

/-! ## One call -/

section Call

variable {py : Platform} {lib : PyLibrary} {request : ExecutionRequest} {env : CallEnvironment}

/-- The status of a call under a new key, by what it stores. -/
def Answers (lib : PyLibrary) (stored : Except PyException (Option (List Char))) (receipt : Option (List Char))
    (s : ExecutionStatus) : Prop :=
  match stored with
  | .error e => s = handledStatus e
  | .ok none => s = .failed
  | .ok (some text) => receipt = some text ∧ s = receiptStatus lib (some text)

/-- The receipt was made of what the transport answered. -/
def ReceiptWritten (lib : PyLibrary) (receipt : Option (List Char)) : Prop :=
  ∀ text, receipt = some text → ∃ answer, writtenReceipt lib answer = .ok text

/-- The handler enters nothing in the trace. -/
theorem run_handle {t : ℕ} {e : PyException} {os : List OutboxOracle} {r : ExecutionResult}
    {h h' : Hist ExecutionRequest Outbox OutboxStep}
    (hrun : outbox.run t request (OutboundMessageExecutor.handle e) os h = (.returned r, h')) :
    h' = h ∧ r.status = handledStatus e := by
  rw [OutboundMessageExecutor.handle] at hrun
  rw [handledStatus]
  split_ifs at hrun ⊢ with hos hexception
  · cases os <;> cases hrun <;> exact ⟨rfl, rfl⟩
  · cases os <;> cases hrun <;> exact ⟨rfl, rfl⟩
  · cases os <;> cases hrun

/-! ## Receipts -/

/-- What the documentation says of JSON texts: the text of a fingerprint has the text of the parameters in it,
and a receipt is read back with its keys sorted. -/
structure PyLibrary.Serializes (lib : PyLibrary) : Prop extends lib.Documented where
  members : ∀ {action : String} {parameters : PyDict} {text : List Char},
    lib.canonical (.ofFields [("action", .text action), ("parameters", .dict parameters)]) = .ok text →
      ∃ literal inner, Json.quote action = some literal ∧ lib.canonical (.dict parameters) = .ok inner ∧
        text = bracket '{' '}' [memberText "\"action\"".toList literal, memberText "\"parameters\"".toList inner]
  receipt : ∀ {messageId : PyText} {accepted durable : Bool} {text : List Char},
    lib.dumps (.ofFields [("message_id", .str messageId), ("accepted", .bool accepted),
      ("durable", .bool durable)]) = .ok text →
      lib.loads text = .ok (.obj [("accepted", .bool accepted), ("durable", .bool durable),
        ("message_id", .str messageId)])

/-- The status of a receipt. -/
theorem fromReceipt_of_fields (hlib : lib.Documented) (fields : PyDict) (messageId : PyText) (accepted durable : Bool)
    (hmessage : fields.get? "message_id" = some (.str messageId))
    (haccepted : fields.get? "accepted" = some (.bool accepted))
    (hdurable : fields.get? "durable" = some (.bool durable)) : ∃ r, fromReceipt lib fields = .ok r ∧
      r.status = if accepted && durable && messageId.strip.length != 0 then .succeeded else .writeStatusUnknown := by
  rw [fromReceipt, hmessage, haccepted, hdurable, Option.getD_some, Option.getD_some, Option.getD_some,
    hlib.bool, hlib.bool, hlib.str]
  cases accepted with
  | false => exact ⟨_, rfl, rfl⟩
  | true =>
    cases durable with
    | false => exact ⟨_, rfl, rfl⟩
    | true => exact ⟨_, rfl, rfl⟩

/-- **A receipt that was stored is read as the receipt that was kept.** -/
theorem receiptStatus_of_kept (hlib : lib.Serializes) {raw receipt : PyDict} {text : List Char} {r : ExecutionResult}
    (hkept : receiptValue lib raw = .ok receipt) (hdumps : lib.dumps (.dict receipt) = .ok text)
    (hr : fromReceipt lib receipt = .ok r) : r.status = receiptStatus lib (some text) := by
  obtain ⟨messageId, -, hkept⟩ := except_bind_eq_ok.mp hkept
  obtain ⟨accepted, -, hkept⟩ := except_bind_eq_ok.mp hkept
  obtain ⟨durable, -, hkept⟩ := except_bind_eq_ok.mp hkept
  obtain rfl := Except.ok.inj hkept
  obtain ⟨r', hr', hstatus⟩ := fromReceipt_of_fields hlib.toDocumented [(.str "message_id", .str messageId.strip),
    (.str "accepted", .bool accepted), (.str "durable", .bool durable)] messageId.strip accepted durable rfl rfl rfl
  obtain ⟨i, hi, hi'⟩ := fromReceipt_of_fields hlib.toDocumented (PyValue.ofJsonFields [("accepted", .bool accepted),
    ("durable", .bool durable), ("message_id", .str messageId.strip)]) messageId.strip accepted durable rfl rfl rfl
  have hstored : storedResult lib text = .ok i := by
    rw [storedResult, hlib.receipt hdumps]
    exact hi
  obtain rfl := Except.ok.inj (hr.symm.trans hr')
  rw [receiptStatus, hstored]
  exact hstatus.trans hi'.symm

/-! ## What a call does -/

/-- No row was found. -/
def FindsNothing (steps : List OutboxStep) : Prop :=
  ∀ key fingerprint text, OutboxStep.begin key fingerprint (.ok (true, text)) ∉ steps

/-- What follows the prepared row: the row is kept, and its receipt may be stored. -/
def DispatchedAs (lib : PyLibrary) (request : ExecutionRequest) (env : CallEnvironment) (fingerprint : String)
    (h h' : Hist ExecutionRequest Outbox OutboxStep) (r : ExecutionResult) : Prop :=
  ∃ steps status receipt, h'.trace.map Entry.step = steps ++ h.trace.map Entry.step ∧ FindsNothing steps ∧
    h'.world.lookup request.idempotencyKey = some ⟨fingerprint, status, receipt⟩ ∧
    (∀ key, key ≠ request.idempotencyKey → h'.world.lookup key = h.world.lookup key) ∧
    ReceiptWritten lib receipt ∧ Answers lib (dispatchedReceipt lib request env) receipt r.status

/-- An exception after the row was prepared. -/
theorem dispatched_handle {t : ℕ} {e : PyException} {os : List OutboxOracle} {r : ExecutionResult}
    {h h' h₀ : Hist ExecutionRequest Outbox OutboxStep} {fingerprint status : String} {receipt : Option (List Char)}
    (steps : List OutboxStep) (hrun : outbox.run t request (OutboundMessageExecutor.handle e) os h = (.returned r, h'))
    (htrace : h.trace.map Entry.step = steps ++ h₀.trace.map Entry.step) (hsteps : FindsNothing steps)
    (hrow : h.world.lookup request.idempotencyKey = some ⟨fingerprint, status, receipt⟩)
    (hother : ∀ key, key ≠ request.idempotencyKey → h.world.lookup key = h₀.world.lookup key)
    (hwritten : ReceiptWritten lib receipt) (hraised : dispatchedReceipt lib request env = .error e) :
    DispatchedAs lib request env fingerprint h₀ h' r := by
  obtain ⟨rfl, hstatus⟩ := run_handle hrun
  exact ⟨steps, status, receipt, htrace, hsteps, hrow, hother, hwritten, by rw [hraised]; exact hstatus⟩

/-- The transaction of `finish` on a prepared row. -/
theorem finish_prepared {key fingerprint status : String} {receipt : Option (List Char)} {o : OutboxOracle}
    {w : Outbox} (hrow : w.lookup key = some ⟨fingerprint, "prepared", none⟩) :
    (Outbox.finish key status receipt o w).1 = failureOf o.failure ∧
    (∃ status' receipt', (Outbox.finish key status receipt o w).2.lookup key = some ⟨fingerprint, status', receipt'⟩ ∧
      (receipt' = none ∨ receipt' = receipt) ∧ (failureOf o.failure = .ok () → receipt' = receipt)) ∧
    ∀ other, other ≠ key → (Outbox.finish key status receipt o w).2.lookup other = w.lookup other := by
  have hupdate : w.update key status receipt = w.insert key ⟨fingerprint, status, receipt⟩ := by
    rw [Outbox.update, hrow]
  have hnew : (w.update key status receipt).lookup key = some ⟨fingerprint, status, receipt⟩ := by
    rw [hupdate, AList.lookup_insert]
  have hother : ∀ other, other ≠ key → (w.update key status receipt).lookup other = w.lookup other :=
    fun other hne => by rw [hupdate, AList.lookup_insert_ne hne]
  rw [Outbox.finish]
  rcases o.failure with - | ⟨e, committed⟩
  · exact ⟨rfl, ⟨status, receipt, hnew, .inr rfl, fun _ => rfl⟩, hother⟩
  · cases committed with
    | true => exact ⟨rfl, ⟨status, receipt, hnew, .inr rfl, fun h => by cases h⟩, hother⟩
    | false => exact ⟨rfl, ⟨"prepared", none, hrow, .inl rfl, fun h => by cases h⟩, fun _ _ => rfl⟩

theorem findsNothing_nil : FindsNothing [] := fun _ _ _ h => (List.not_mem_nil h).elim

theorem FindsNothing.cons {s : OutboxStep} {steps : List OutboxStep} (h : FindsNothing steps)
    (hs : ∀ key fingerprint text, s ≠ .begin key fingerprint (.ok (true, text))) : FindsNothing (s :: steps) := by
  rintro key fingerprint text hmem
  rcases List.mem_cons.mp hmem with hmem | hmem
  · exact hs key fingerprint text hmem.symm
  · exact h key fingerprint text hmem

theorem FindsNothing.append {newer older : List OutboxStep} (hnewer : FindsNothing newer)
    (holder : FindsNothing older) : FindsNothing (newer ++ older) := fun key fingerprint text h =>
  (List.mem_append.mp h).elim (hnewer key fingerprint text) (holder key fingerprint text)

theorem findsNothing_begin {key fingerprint : String} {r : Except PyException (Bool × Option (List Char))}
    (hr : ∀ text, r ≠ .ok (true, text)) : FindsNothing [.begin key fingerprint r] :=
  findsNothing_nil.cons fun _ _ _ h => hr _ (OutboxStep.begin.inj h).2.2

/-- The last transaction, on the prepared row, and the result behind it. -/
theorem run_finish (steps : List OutboxStep) {t : ℕ} {fingerprint status : String} {receipt : Option (List Char)}
    {r answer : ExecutionResult} {transport : Except PyException PyValue} {os : List OutboxOracle}
    {h₀ h h' : Hist ExecutionRequest Outbox OutboxStep}
    (hrun : outbox.run t request (Prog.tryCatch (.call (.finish request.idempotencyKey status receipt) fun x =>
      (Prog.ofExcept x).bind fun _ => .ret answer) OutboundMessageExecutor.handle) (⟨env.closed, transport⟩ :: os) h =
        (.returned r, h'))
    (htrace : h.trace.map Entry.step = steps ++ h₀.trace.map Entry.step) (hsteps : FindsNothing steps)
    (hrow : h.world.lookup request.idempotencyKey = some ⟨fingerprint, "prepared", none⟩)
    (hsame : ∀ key, key ≠ request.idempotencyKey → h.world.lookup key = h₀.world.lookup key)
    (hwritten : ReceiptWritten lib receipt) (hstored : dispatchedReceipt lib request env = (do
        failureOf env.closed
        return receipt))
    (hanswer : Answers lib (.ok receipt) receipt answer.status) :
    DispatchedAs lib request env fingerprint h₀ h' r := by
  obtain ⟨hres, ⟨status', receipt', hrow', hkept, hdone⟩, hother⟩ :=
    @finish_prepared request.idempotencyKey fingerprint status receipt ⟨env.closed, transport⟩ _ hrow
  have hfinished : outbox.run t request (Prog.tryCatch ((Prog.ofExcept (Outbox.finish request.idempotencyKey
      status receipt ⟨env.closed, transport⟩ h.world).1).bind fun _ => Prog.ret answer)
        OutboundMessageExecutor.handle) os
      ⟨(Outbox.finish request.idempotencyKey status receipt ⟨env.closed, transport⟩ h.world).2,
        ⟨t, request, h.world, .finish request.idempotencyKey status receipt (Outbox.finish
          request.idempotencyKey status receipt ⟨env.closed, transport⟩ h.world).1⟩ :: h.trace⟩ =
      (.returned r, h') := hrun
  have hwritten' : ReceiptWritten lib receipt' := by
    rintro text rfl
    rcases hkept with hkept | hkept
    · cases hkept
    · exact hwritten text hkept.symm
  have hothers := fun key hne => (hother key hne).trans (hsame key hne)
  rw [show (Outbox.finish request.idempotencyKey status receipt ⟨env.closed, transport⟩ h.world).1 =
    failureOf env.closed from hres] at hfinished
  cases hclosed : failureOf env.closed with
  | error e =>
    rw [hclosed] at hstored hfinished
    exact dispatched_handle (.finish _ _ _ _ :: steps) hfinished (congrArg (_ :: ·) htrace) (hsteps.cons nofun)
      hrow' hothers hwritten' hstored
  | ok u =>
    rw [hclosed] at hstored hfinished
    obtain ⟨hreturned, rfl⟩ := Prod.mk.inj hfinished
    obtain rfl := Outcome.returned.inj hreturned
    obtain rfl := hdone hclosed
    refine ⟨_ :: steps, status', receipt', congrArg (_ :: ·) htrace, hsteps.cons nofun, hrow', hothers, hwritten', ?_⟩
    rw [hstored]
    exact hanswer

/-- What follows the answer of the transport. -/
theorem run_answered (steps : List OutboxStep) (hlib : lib.Serializes) {t : ℕ} {fingerprint : String}
    {r : ExecutionResult} {answer : PyValue} {transport : Except PyException PyValue}
    {h₀ h h' : Hist ExecutionRequest Outbox OutboxStep}
    (hrun : outbox.run t request (Prog.tryCatch (do
        let receipt ← Prog.ofExcept (do receiptValue lib (← lib.dict answer))
        SQLiteOutbox.finish lib request.idempotencyKey "finished" (some receipt)
        Prog.ofExcept (fromReceipt lib receipt)) OutboundMessageExecutor.handle)
      [⟨env.closed, transport⟩] h = (.returned r, h'))
    (htrace : h.trace.map Entry.step = steps ++ h₀.trace.map Entry.step) (hsteps : FindsNothing steps)
    (hrow : h.world.lookup request.idempotencyKey = some ⟨fingerprint, "prepared", none⟩)
    (hworld : h.world = h₀.world)
    (hstored : dispatchedReceipt lib request env = (do
        let text ← writtenReceipt lib answer
        failureOf env.closed
        return some text)) :
    DispatchedAs lib request env fingerprint h₀ h' r := by
  have hsame : ∀ key, key ≠ request.idempotencyKey → h.world.lookup key = h₀.world.lookup key :=
    fun _ _ => by rw [hworld]
  rw [writtenReceipt_eq] at hstored
  cases hreceipt : (do receiptValue lib (← lib.dict answer) : Except PyException PyDict) with
  | error e =>
    rw [hreceipt] at hrun hstored
    exact dispatched_handle steps hrun htrace hsteps hrow hsame nofun hstored
  | ok receipt =>
    rw [hreceipt] at hrun hstored
    simp only [Prog.bind_eq, Prog.ofExcept, Prog.bind, SQLiteOutbox.finish] at hrun
    cases hdumps : lib.dumps (.dict receipt) with
    | error e =>
      rw [hdumps] at hrun
      exact dispatched_handle steps hrun htrace hsteps hrow hsame nofun
        (hstored.trans (by rw [except_bind_eq_error.mpr (.inr ⟨receipt, rfl, hdumps⟩)]; rfl))
    | ok text =>
      have htext : writtenReceipt lib answer = .ok text := by
        rw [writtenReceipt_eq, hreceipt]
        exact hdumps
      obtain ⟨raw, -, hraw⟩ := except_bind_eq_ok.mp hreceipt
      obtain ⟨r', hr'⟩ := exists_fromReceipt hlib.toDocumented hraw
      rw [hdumps, hr'] at hrun
      replace hstored : dispatchedReceipt lib request env = (do
          failureOf env.closed
          return some text) := by
        rw [hstored, except_bind_eq_ok.mpr ⟨receipt, rfl, hdumps⟩]
        rfl
      exact run_finish steps hrun htrace hsteps hrow hsame (fun _ h => ⟨answer, Option.some.inj h ▸ htext⟩) hstored
        ⟨rfl, receiptStatus_of_kept hlib hraw hdumps hr'⟩

/-- **What follows the prepared row.** -/
theorem run_dispatch (hlib : lib.Serializes) {t : ℕ} {fingerprint : String} {r : ExecutionResult}
    {h h' : Hist ExecutionRequest Outbox OutboxStep}
    (hrow : h.world.lookup request.idempotencyKey = some ⟨fingerprint, "prepared", none⟩)
    (hrun : outbox.run t request (Prog.tryCatch (OutboundMessageExecutor.dispatch lib request)
      OutboundMessageExecutor.handle) [⟨env.closed, env.transport⟩, ⟨env.closed, env.transport⟩] h =
        (.returned r, h')) :
    DispatchedAs lib request env fingerprint h h' r := by
  have hraised : ∀ {e os}, outbox.run t request (OutboundMessageExecutor.handle e) os h = (.returned r, h') →
      dispatchedReceipt lib request env = .error e → DispatchedAs lib request env fingerprint h h' r :=
    fun hrun hstored => dispatched_handle [] hrun rfl findsNothing_nil hrow (fun _ _ => rfl) (fun _ h => by cases h)
      hstored
  rw [OutboundMessageExecutor.dispatch] at hrun
  cases hrecipient : (do lib.str (← request.parameters.getItem "recipient") : Except PyException PyText) with
  | error e =>
    rw [hrecipient] at hrun
    exact hraised hrun (by rw [dispatchedReceipt, messageFields, hrecipient]; rfl)
  | ok recipient =>
  rw [hrecipient] at hrun
  cases hsubject : lib.str ((request.parameters.get? "subject").getD (.text "")) with
  | error e =>
    rw [hsubject] at hrun
    exact hraised hrun (by rw [dispatchedReceipt, messageFields, hrecipient, hsubject]; rfl)
  | ok subject =>
  rw [hsubject] at hrun
  cases hbody : (do lib.str (← request.parameters.getItem "body") : Except PyException PyText) with
  | error e =>
    rw [hbody] at hrun
    exact hraised hrun (by rw [dispatchedReceipt, messageFields, hrecipient, hsubject, hbody]; rfl)
  | ok body =>
  rw [hbody] at hrun
  have hfields : messageFields lib request = .ok (recipient, body) := by
    rw [messageFields, hrecipient, hsubject, hbody]
    rfl
  simp only [Prog.bind_eq, Prog.ofExcept, Prog.bind] at hrun
  by_cases hempty : recipient.strip.length = 0 ∨ body.length = 0
  · rw [if_pos hempty] at hrun
    have hstored : dispatchedReceipt lib request env = (do
        failureOf env.closed
        return none) := by
      rw [dispatchedReceipt, hfields]
      exact if_pos hempty
    exact run_finish [] hrun rfl findsNothing_nil hrow (fun _ _ => rfl) (fun _ h => by cases h) hstored rfl
  · rw [if_neg hempty] at hrun
    have hstored : dispatchedReceipt lib request env = (do
        let answer ← env.transport
        let text ← writtenReceipt lib answer
        failureOf env.closed
        return some text) := by
      rw [dispatchedReceipt, hfields]
      exact if_neg hempty
    have hsent : outbox.run t request (Prog.tryCatch ((Prog.ofExcept env.transport).bind fun answer => do
          let receipt ← Prog.ofExcept (do receiptValue lib (← lib.dict answer))
          SQLiteOutbox.finish lib request.idempotencyKey "finished" (some receipt)
          Prog.ofExcept (fromReceipt lib receipt)) OutboundMessageExecutor.handle)
        [⟨env.closed, env.transport⟩]
        ⟨h.world, ⟨t, request, h.world, .send recipient.strip subject body request.idempotencyKey env.transport⟩ ::
          h.trace⟩ = (.returned r, h') := hrun
    cases htransport : env.transport with
    | error e =>
      rw [htransport] at hstored hsent
      exact dispatched_handle [.send _ _ _ _ _] hsent rfl (findsNothing_nil.cons fun _ _ _ h => by cases h) hrow
        (fun _ _ => rfl) (fun _ h => by cases h) hstored
    | ok answer =>
      rw [htransport] at hstored hsent
      exact run_answered [.send _ _ _ _ _] hlib hsent rfl (findsNothing_nil.cons fun _ _ _ h => by cases h) hrow rfl
        hstored

/-- What a call does that returns: it finds a row, it prepares one, or it leaves the table alone. -/
inductive Called (py : Platform) (lib : PyLibrary) (w : Outbox) (request : ExecutionRequest) (env : CallEnvironment) :
    List OutboxStep → ExecutionStatus → Outbox → Prop
  | unsupported (haction : request.action ≠ "send_message") : Called py lib w request env [] .failed w
  | replayed {row : OutboxRow} (haction : request.action = "send_message")
    (hfingerprint : messageFingerprint py lib request = .ok row.fingerprint)
    (hrow : w.lookup request.idempotencyKey = some row) :
    Called py lib w request env [.begin request.idempotencyKey row.fingerprint (.ok (true, row.receiptJson))]
      (receiptStatus lib row.receiptJson) w
  | refused {steps : List OutboxStep} {e : PyException} (haction : request.action = "send_message")
    (hsteps : FindsNothing steps)
    (hnew : w.lookup request.idempotencyKey = none → newReceipt py lib request env = .error e) :
    Called py lib w request env steps (handledStatus e) w
  | prepared {steps : List OutboxStep} {s : ExecutionStatus} {w' : Outbox} {row : OutboxRow}
    (haction : request.action = "send_message")
    (hfingerprint : messageFingerprint py lib request = .ok row.fingerprint)
    (hnone : w.lookup request.idempotencyKey = none) (hsteps : FindsNothing steps)
    (hrow : w'.lookup request.idempotencyKey = some row)
    (hother : ∀ key, key ≠ request.idempotencyKey → w'.lookup key = w.lookup key)
    (hwritten : ReceiptWritten lib row.receiptJson)
    (hanswers : Answers lib (newReceipt py lib request env) row.receiptJson s) : Called py lib w request env steps s w'

/-- An operation, and what follows its answer. -/
theorem run_call {t : ℕ} {op : OutboxOp} {k : OutboxOp.Res op → OutboxProg ExecutionResult} {o : OutboxOracle}
    {os : List OutboxOracle} (h : Hist ExecutionRequest Outbox OutboxStep) {x : OutboxOp.Res op} {w : Outbox}
    (hexec : outbox.exec op o h.world = (x, w)) : outbox.run t request (.call op k) (o :: os) h =
      outbox.run t request (k x) os ⟨w, ⟨t, request, h.world, outbox.label op x⟩ :: h.trace⟩ := by
  rw [Machine.run, Machine.advance, hexec]

/-- **What a call does.** -/
theorem run_execute (hlib : lib.Serializes) {t : ℕ} {w : Outbox} {r : ExecutionResult}
    {hist : Hist ExecutionRequest Outbox OutboxStep}
    (hrun : outbox.run t request (OutboundMessageExecutor.execute py lib request) env.oracles ⟨w, []⟩ =
      (.returned r, hist)) :
    Called py lib w request env (hist.trace.map Entry.step) r.status hist.world := by
  rw [OutboundMessageExecutor.execute] at hrun
  by_cases haction : request.action = "send_message"
  case neg =>
    rw [if_pos haction] at hrun
    cases hrun
    exact .unsupported haction
  rw [if_neg (not_not.mpr haction), OutboundMessageExecutor.attempt, SQLiteOutbox.begin] at hrun
  cases hfingerprint : messageFingerprint py lib request with
  | error e =>
    rw [hfingerprint] at hrun
    obtain ⟨rfl, hstatus⟩ := run_handle hrun
    rw [hstatus]
    exact .refused haction findsNothing_nil fun _ => by rw [newReceipt, hfingerprint]; rfl
  | ok fingerprint =>
  rw [hfingerprint] at hrun
  cases hrow : w.lookup request.idempotencyKey with
  | some row =>
    have hraised : ∀ {e}, outbox.exec (.begin request.idempotencyKey fingerprint) ⟨env.opened, env.transport⟩ w =
        (.error e, w) → Called py lib w request env (hist.trace.map Entry.step) r.status hist.world := by
      intro e hbegin
      obtain ⟨rfl, hstatus⟩ := run_handle ((run_call ⟨w, []⟩ hbegin).symm.trans hrun)
      rw [hstatus]
      exact .refused haction (findsNothing_begin fun _ h => by cases h) fun h => by cases hrow.symm.trans h
    cases hopened : env.opened with
    | some failure => exact hraised (by simp only [outbox, Outbox.begin, hrow, hopened]; rfl)
    | none =>
      by_cases hsame : row.fingerprint = fingerprint
      case neg => exact hraised (by simp only [outbox, Outbox.begin, hrow, hopened, if_pos hsame]; rfl)
      subst hsame
      have hbegin : outbox.exec (.begin request.idempotencyKey row.fingerprint) ⟨env.opened, env.transport⟩ w =
          (.ok (true, row.receiptJson), w) := by
        simp only [outbox, Outbox.begin, hrow, hopened]
        exact if_neg (not_not.mpr rfl)
      have hfound := (run_call ⟨w, []⟩ hbegin).symm.trans hrun
      obtain ⟨hsteps, hstatus⟩ : hist = ⟨w, [⟨t, request, w, .begin request.idempotencyKey row.fingerprint
          (.ok (true, row.receiptJson))⟩]⟩ ∧ r.status = receiptStatus lib row.receiptJson := by
        cases hreceipt : row.receiptJson with
        | none =>
          rw [hreceipt] at hfound
          obtain ⟨hreturned, rfl⟩ := Prod.mk.inj hfound
          obtain rfl := Outcome.returned.inj hreturned
          exact ⟨rfl, rfl⟩
        | some text =>
          rw [hreceipt] at hfound
          simp only [Prog.bind_eq, Prog.ofExcept, Prog.bind] at hfound
          rw [receiptStatus, storedResult]
          cases hloads : lib.loads text with
          | error e =>
            rw [hloads] at hfound
            exact run_handle hfound
          | ok j =>
            rw [hloads] at hfound
            simp only [Prog.pure_eq, Prog.bind, if_true] at hfound
            rw [show (do fromStored lib (← .ok j) : Except PyException ExecutionResult) = fromStored lib j from rfl]
            cases hstored : fromStored lib j with
            | error e =>
              rw [hstored] at hfound
              exact run_handle hfound
            | ok r' =>
              rw [hstored] at hfound
              obtain ⟨hreturned, rfl⟩ := Prod.mk.inj hfound
              obtain rfl := Outcome.returned.inj hreturned
              exact ⟨rfl, rfl⟩
      rw [hsteps, hstatus]
      exact .replayed haction hfingerprint hrow
  | none =>
    have hprepared : (w.insert request.idempotencyKey ⟨fingerprint, "prepared", none⟩).lookup request.idempotencyKey =
        some ⟨fingerprint, "prepared", none⟩ := AList.lookup_insert w
    have hothers : ∀ key, key ≠ request.idempotencyKey →
        (w.insert request.idempotencyKey ⟨fingerprint, "prepared", none⟩).lookup key = w.lookup key :=
      fun key hne => AList.lookup_insert_ne hne
    cases hopened : env.opened with
    | some failure =>
      obtain ⟨e, committed⟩ := failure
      have hbegin : outbox.exec (.begin request.idempotencyKey fingerprint) ⟨env.opened, env.transport⟩ w =
          (.error e, if committed then w.insert request.idempotencyKey ⟨fingerprint, "prepared", none⟩ else w) := by
        simp only [outbox, Outbox.begin, hrow, hopened]
        rfl
      have hnew : newReceipt py lib request env = .error e := by
        rw [newReceipt, hfingerprint, hopened]
        rfl
      obtain ⟨rfl, hstatus⟩ := run_handle ((run_call ⟨w, []⟩ hbegin).symm.trans hrun)
      rw [hstatus]
      cases committed with
      | true =>
        exact .prepared haction hfingerprint hrow (findsNothing_begin fun _ h => by cases h) hprepared hothers
          (fun _ h => by cases h) (by rw [hnew]; rfl)
      | false => exact .refused haction (findsNothing_begin fun _ h => by cases h) fun _ => hnew
    | none =>
      have hbegin : outbox.exec (.begin request.idempotencyKey fingerprint) ⟨env.opened, env.transport⟩ w =
          (.ok (false, none), w.insert request.idempotencyKey ⟨fingerprint, "prepared", none⟩) := by
        simp only [outbox, Outbox.begin, hrow, hopened]
        rfl
      have hnew : newReceipt py lib request env = dispatchedReceipt lib request env := by
        rw [newReceipt, hfingerprint, hopened]
        rfl
      obtain ⟨steps, status, receipt, htrace, hsteps, hrow', hother, hwritten, hanswers⟩ :=
        run_dispatch hlib hprepared ((run_call ⟨w, []⟩ hbegin).symm.trans hrun)
      rw [htrace]
      exact .prepared haction hfingerprint hrow (hsteps.append (findsNothing_begin fun _ h => by cases h)) hrow'
        (fun key hne => (hother key hne).trans (hothers key hne)) hwritten (hnew ▸ hanswers)

/-! ## The table over a run -/

/-- A row stays as it is. -/
theorem Called.keeps {w w' : Outbox} {steps : List OutboxStep} {s : ExecutionStatus}
    (h : Called py lib w request env steps s w') {key : String} {row : OutboxRow} (hrow : w.lookup key = some row) :
    w'.lookup key = some row := by
  cases h with
  | unsupported | replayed | refused => exact hrow
  | prepared _ _ hnone _ _ hother _ _ =>
    have hne : key ≠ request.idempotencyKey := by
      rintro rfl
      exact nomatch hrow.symm.trans hnone
    exact (hother key hne).trans hrow

/-- The call that prepared a row. -/
theorem Called.prepares {w w' : Outbox} {steps : List OutboxStep} {s : ExecutionStatus}
    (h : Called py lib w request env steps s w') {key : String} {row : OutboxRow} (hnone : w.lookup key = none)
    (hrow : w'.lookup key = some row) : request.idempotencyKey = key ∧ request.action = "send_message" ∧
      messageFingerprint py lib request = .ok row.fingerprint ∧ ReceiptWritten lib row.receiptJson := by
  cases h with
  | unsupported | replayed | refused => exact nomatch hrow.symm.trans hnone
  | prepared haction hfingerprint _ _ hrow' hother hwritten _ =>
    by_cases hkey : key = request.idempotencyKey
    · subst hkey
      obtain rfl := Option.some.inj (hrow'.symm.trans hrow)
      exact ⟨rfl, haction, hfingerprint, hwritten⟩
    · exact nomatch hrow.symm.trans ((hother key hkey).trans hnone)

/-- The call that was answered from a row. -/
theorem Called.replays {w w' : Outbox} {steps : List OutboxStep} {s : ExecutionStatus}
    (h : Called py lib w request env steps s w') (hfound : ¬ FindsNothing steps) :
    ∃ row, request.action = "send_message" ∧ messageFingerprint py lib request = .ok row.fingerprint ∧
      w.lookup request.idempotencyKey = some row ∧ s = receiptStatus lib row.receiptJson := by
  cases h with
  | unsupported => exact absurd findsNothing_nil hfound
  | replayed haction hfingerprint hrow => exact ⟨_, haction, hfingerprint, hrow, rfl⟩
  | refused _ hsteps _ => exact absurd hsteps hfound
  | prepared _ _ _ hsteps => exact absurd hsteps hfound

variable {past : List Delivery} {w : Outbox}

/-- Every call of a run did what a call does, after a run. -/
theorem Delivered.split (hlib : lib.Serializes) {newer older : List Delivery} {d : Delivery}
    (h : Delivered py lib (newer ++ d :: older) w) : Delivered py lib older d.before ∧
      Called py lib d.before d.request d.environment d.steps d.result.status d.after := by
  induction newer generalizing w with
  | nil =>
    cases h with
    | cons h request environment hrun => exact ⟨h, run_execute hlib hrun⟩
  | cons e newer ih =>
    cases h with
    | cons h request environment hrun => exact ih h

/-- **What a call left under a key stays there.** -/
theorem Delivered.stays (hlib : lib.Serializes) (h : Delivered py lib past w) {p : Delivery} (hp : p ∈ past)
    {key : String} {row : OutboxRow} (hrow : p.after.lookup key = some row) : w.lookup key = some row := by
  induction h with
  | nil => exact absurd hp List.not_mem_nil
  | cons h request environment hrun ih =>
    rcases List.mem_cons.mp hp with rfl | hp
    · exact hrow
    · exact (run_execute hlib hrun).keeps (ih hp)

/-- **A row was prepared by a call of the run.** -/
theorem Delivered.preparer (hlib : lib.Serializes) (h : Delivered py lib past w) {key : String} {row : OutboxRow}
    (hrow : w.lookup key = some row) : ∃ p ∈ past, p.request.idempotencyKey = key ∧
      ReceiptWritten lib row.receiptJson := by
  induction h with
  | nil => exact nomatch hrow
  | @cons past w h request environment r hist hrun ih =>
    cases hbefore : w.lookup key with
    | some row' =>
      obtain rfl := Option.some.inj (((run_execute hlib hrun).keeps hbefore).symm.trans hrow)
      obtain ⟨p, hp, hkey⟩ := ih hbefore
      exact ⟨p, List.mem_cons_of_mem _ hp, hkey⟩
    | none =>
      obtain ⟨hkey, -, -, hwritten⟩ := (run_execute hlib hrun).prepares hbefore hrow
      exact ⟨_, List.mem_cons_self, hkey, hwritten⟩

/-- The first call under a key found no row. -/
theorem Delivered.first_new (hlib : lib.Serializes) (h : Delivered py lib past w) {key : String} {f : Delivery}
    (hf : FirstUnder past key f) : f.before.lookup key = none ∧ f ∈ past ∧ f.request.idempotencyKey = key ∧
      Called py lib f.before f.request f.environment f.steps f.result.status f.after := by
  obtain ⟨newer, older, rfl, hkey, hbefore⟩ := hf
  obtain ⟨holder, hcalled⟩ := h.split hlib
  refine ⟨?_, List.mem_append_right _ List.mem_cons_self, hkey, hcalled⟩
  cases hrow : f.before.lookup key with
  | none => rfl
  | some row =>
    obtain ⟨p, hp, hpkey, -⟩ := holder.preparer hlib hrow
    exact absurd hpkey (hbefore p hp)

/-! ## Replays -/

/-- A row is answered with SUCCEEDED when its receipt is verified, with WRITE_STATUS_UNKNOWN otherwise. -/
theorem receiptStatus_of_written (hlib : lib.Serializes) {row : OutboxRow} (h : ReceiptWritten lib row.receiptJson) :
    receiptStatus lib row.receiptJson ≠ .failed ∧
      (receiptStatus lib row.receiptJson = .succeeded ↔ row.Verified lib) := by
  cases hreceipt : row.receiptJson with
  | none =>
    refine ⟨nofun, fun h => (nomatch h), ?_⟩
    rintro ⟨text, r, htext, -, -⟩
    exact nomatch hreceipt.symm.trans htext
  | some text =>
    obtain ⟨answer, hanswer⟩ := h text hreceipt
    rw [writtenReceipt_eq] at hanswer
    obtain ⟨receipt, hreceived, hdumps⟩ := except_bind_eq_ok.mp hanswer
    obtain ⟨raw, -, hkept⟩ := except_bind_eq_ok.mp hreceived
    obtain ⟨r, hr⟩ := exists_fromReceipt hlib.toDocumented hkept
    have hstatus : r.status = receiptStatus lib (some text) := receiptStatus_of_kept hlib hkept hdumps hr
    refine ⟨hstatus ▸ fromReceipt_status hr, fun hsucceeded => ?_, ?_⟩
    · rw [receiptStatus] at hsucceeded
      split at hsucceeded
      · rename_i r' hr'
        exact ⟨text, r', hreceipt, hr', hsucceeded⟩
      · rename_i e he
        rw [handledStatus] at hsucceeded
        split_ifs at hsucceeded
    · rintro ⟨text', r', htext, hr', hsucceeded⟩
      obtain rfl := Option.some.inj (hreceipt.symm.trans htext)
      rw [receiptStatus, hr']
      exact hsucceeded

/-- Equal fingerprints are fingerprints of equal parameters. -/
theorem sameParameters_of_fingerprint (hsha : Function.Injective py.sha256) (hlib : lib.Serializes)
    {request' : ExecutionRequest} {fingerprint : String} (haction : request.action = request'.action)
    (h : messageFingerprint py lib request = .ok fingerprint)
    (h' : messageFingerprint py lib request' = .ok fingerprint) :
    SameParameters lib request.parameters request'.parameters := by
  obtain ⟨text, htext, hdigest⟩ := except_bind_eq_ok.mp h
  obtain ⟨text', htext', hdigest'⟩ := except_bind_eq_ok.mp h'
  obtain rfl : text = text' := hsha ((Except.ok.inj hdigest).trans (Except.ok.inj hdigest').symm)
  obtain ⟨literal, inner, hliteral, hinner, hwhole⟩ := hlib.members htext
  obtain ⟨literal', inner', hliteral', hinner', hwhole'⟩ := hlib.members htext'
  obtain rfl : literal = literal' := Option.some.inj (hliteral.symm.trans (haction ▸ hliteral'))
  have hsame : inner = inner' := by
    have hmembers := hwhole.symm.trans hwhole'
    simpa only [bracket, Json.commas, memberText, List.cons.injEq, List.append_cancel_right_eq,
      List.append_cancel_left_eq, true_and] using hmembers
  exact ⟨inner, hinner, hsame ▸ hinner'⟩

/-- The status after an exception in the first call. -/
theorem status_eq_iff_of_error (hlib : lib.Serializes) {row : OutboxRow} {e : PyException}
    (hwritten : ReceiptWritten lib row.receiptJson) (haction : request.action = "send_message")
    (hnew : newReceipt py lib request env = .error e) :
    receiptStatus lib row.receiptJson = handledStatus e ↔
      ¬ FailsFirst py lib request env ∧ (UnknownFirst py lib request env → ¬ row.Verified lib) := by
  obtain ⟨hreplays, hverified⟩ := receiptStatus_of_written hlib hwritten
  rw [handledStatus, ← hverified]
  cases hos : e.isAny ["OSError", "TimeoutError", "ConnectionError"] with
  | true =>
    have hfails : ¬ FailsFirst py lib request env := by
      rintro (h | h | ⟨e', h, he'⟩)
      · exact h haction
      · exact nomatch hnew.symm.trans h
      · obtain rfl := Except.error.inj (hnew.symm.trans h)
        exact nomatch hos.symm.trans he'
    have hunknown : UnknownFirst py lib request env := ⟨haction, e, hnew, hos⟩
    rw [if_pos rfl]
    refine ⟨fun h => ⟨hfails, fun _ hs => nomatch h.symm.trans hs⟩, fun h => ?_⟩
    cases hs : receiptStatus lib row.receiptJson with
    | succeeded => exact absurd hs (h.2 hunknown)
    | failed => exact absurd hs hreplays
    | writeStatusUnknown => rfl
  | false =>
    rw [if_neg Bool.false_ne_true]
    exact iff_of_false hreplays fun h => h.1 (.inr (.inr ⟨e, hnew, hos⟩))

/-- **The status of a replay is the status that was returned first**, in just these cases. -/
theorem status_eq_iff (hlib : lib.Serializes) {w w' : Outbox} {steps : List OutboxStep} {s : ExecutionStatus}
    {row : OutboxRow} (hfirst : Called py lib w request env steps s w')
    (hnone : w.lookup request.idempotencyKey = none) (hwritten : ReceiptWritten lib row.receiptJson)
    (hstays : ∀ row', w'.lookup request.idempotencyKey = some row' → row' = row) :
    receiptStatus lib row.receiptJson = s ↔
      ¬ FailsFirst py lib request env ∧ (UnknownFirst py lib request env → ¬ row.Verified lib) := by
  have hreplays := (receiptStatus_of_written hlib hwritten).1
  cases hfirst with
  | unsupported haction => exact iff_of_false hreplays fun h => h.1 (.inl haction)
  | replayed _ _ hrow => exact nomatch hrow.symm.trans hnone
  | refused haction _ hnew => exact status_eq_iff_of_error hlib hwritten haction (hnew hnone)
  | prepared haction _ _ _ hrow _ _ hanswers =>
    cases hnew : newReceipt py lib request env with
    | error e =>
      rw [hnew] at hanswers
      obtain rfl : s = handledStatus e := hanswers
      exact status_eq_iff_of_error hlib hwritten haction hnew
    | ok stored =>
      rw [hnew] at hanswers
      cases stored with
      | none =>
        obtain rfl : s = .failed := hanswers
        exact iff_of_false hreplays fun h => h.1 (.inr (.inl hnew))
      | some text =>
        obtain ⟨hreceipt, rfl⟩ := hanswers
        obtain rfl := hstays _ hrow
        rw [hreceipt]
        refine iff_of_true rfl ⟨?_, fun ⟨_, e, h, _⟩ => nomatch hnew.symm.trans h⟩
        rintro (h | h | ⟨e, h, -⟩)
        · exact h haction
        · exact nomatch hnew.symm.trans h
        · exact nomatch hnew.symm.trans h

/-- **Which replays are faithful.** -/
theorem faithful_iff (hsha : Function.Injective py.sha256) (hlib : lib.Serializes) (h : Delivered py lib past w) :
    Faithful lib past ↔ Replayable py lib past := by
  refine forall_congr' fun newer => forall_congr' fun d => forall_congr' fun older => forall_congr' fun hpast =>
    forall_congr' fun hreplayed => ?_
  subst hpast
  obtain ⟨holder, hcalled⟩ := h.split hlib
  obtain ⟨row, haction, hfingerprint, hrow, hstatus⟩ :=
    hcalled.replays fun hnothing => hreplayed.elim fun _ ⟨_, _, hmem⟩ => hnothing _ _ _ hmem
  obtain ⟨-, -, -, hwritten⟩ := holder.preparer hlib hrow
  refine and_congr (exists_congr fun p => and_congr_right fun hp => and_congr_right fun hprepared => ?_)
    (exists_congr fun f => and_congr_right fun hf => ?_)
  · refine ⟨fun h => h.1, fun hid => ⟨hid, ?_⟩⟩
    obtain ⟨hnone, row', hrow'⟩ := hprepared
    obtain ⟨newer', older', rfl⟩ := List.append_of_mem hp
    obtain rfl := Option.some.inj ((holder.stays hlib hp hrow').symm.trans hrow)
    obtain ⟨-, haction', hfingerprint', -⟩ := (holder.split hlib).2.prepares hnone hrow'
    have hactions := haction'.trans haction.symm
    exact ⟨hactions, sameParameters_of_fingerprint hsha hlib hactions hfingerprint' hfingerprint⟩
  · obtain ⟨hnone, hmem, hkey, hfirst⟩ := holder.first_new hlib hf
    rw [hstatus, status_eq_iff hlib hfirst (hkey ▸ hnone) hwritten fun row' hrow' =>
      Option.some.inj ((holder.stays hlib hmem (hkey ▸ hrow')).symm.trans hrow)]
    refine and_congr_right fun _ => forall_congr' fun _ => ⟨fun h row' hrow' => ?_, fun h => h row hrow⟩
    rw [Option.some.inj (hrow'.symm.trans hrow)]
    exact h

end Call

/-! ## A message without a recipient -/

/-- The text of a fingerprint has the text of the parameters in it. -/
theorem canonical_members {action : String} {j : Json} {text : List Char}
    (h : Json.canonical (.obj [("action", .text action), ("parameters", j)]) = some text) :
    ∃ literal inner, Json.quote action = some literal ∧ j.canonical = some inner ∧
      text = bracket '{' '}' [memberText "\"action\"".toList literal, memberText "\"parameters\"".toList inner] := by
  obtain ⟨members, hmembers, rfl⟩ := Option.map_eq_some_iff.mp h
  obtain ⟨literal, hliteral, hmembers⟩ := Option.bind_eq_some_iff.mp hmembers
  obtain ⟨rest, hrest, rfl⟩ := Option.map_eq_some_iff.mp hmembers
  obtain ⟨inner, hinner, hrest⟩ := Option.bind_eq_some_iff.mp hrest
  obtain rfl : [⟨"parameters", inner⟩] = rest := Option.some.inj hrest
  have hsorted : ([⟨"action", literal⟩, ⟨"parameters", inner⟩] : List Json.Member).Pairwise fun a b => a.le b = true :=
    List.pairwise_pair.mpr (decide_eq_true (by decide +kernel : "action" ≤ "parameters"))
  have haction : "\"action\"".toList = '"' :: "action".toList.flatMap Json.escape ++ ['"'] := by decide +kernel
  have hparameters : "\"parameters\"".toList = '"' :: "parameters".toList.flatMap Json.escape ++ ['"'] := by
    decide +kernel
  refine ⟨literal, inner, hliteral, hinner, ?_⟩
  rw [Json.renderObject, hsorted.insertionSort_eq, haction, hparameters]
  simp only [List.map_cons, List.map_nil, bracket, memberText, Json.commas, List.append_assoc, List.cons_append,
    List.nil_append]

/-- The receipt as `json.dumps` sorts it. -/
theorem sortKeys_receipt (messageId accepted durable : Json) :
    Json.sortKeys (.obj [("message_id", messageId), ("accepted", accepted), ("durable", durable)]) =
      .obj [("accepted", accepted.sortKeys), ("durable", durable.sortKeys), ("message_id", messageId.sortKeys)] := by
  have hfirst : (PyText.utf8 "accepted").le "durable" = true := by decide +kernel
  have hsecond : (PyText.utf8 "message_id").le "accepted" = false := by decide +kernel
  have hthird : (PyText.utf8 "message_id").le "durable" = false := by decide +kernel
  simp [Json.sortKeys, Json.sortFields, List.orderedInsert, hfirst, hsecond, hthird]

theorem PyLibrary.builtin_serializes : PyLibrary.builtin.Serializes where
  toDocumented := PyLibrary.builtin_documented
  members := by
    intro action parameters text h
    obtain ⟨j, hj, hcanonical⟩ := PyValue.dumpsAs_eq_ok.mp h
    have hfields : PyValue.json? (fun _ => none) (.ofFields [("action", .text action), ("parameters",
        .dict parameters)]) = (PyValue.json? (fun _ => none) (.dict parameters)).map fun j =>
          .obj [("action", .text action), ("parameters", j)] := by
      simp only [PyValue.ofFields, List.map_cons, List.map_nil, PyValue.text, PyValue.json?, PyValue.jsonFields?]
      cases (PyValue.jsonFields? (fun _ => none) parameters).map Json.obj <;> rfl
    obtain ⟨inner, hinner, rfl⟩ := Option.map_eq_some_iff.mp (hfields.symm.trans hj)
    obtain ⟨literal, text', hliteral, htext', rfl⟩ := canonical_members hcanonical
    exact ⟨literal, text', hliteral, PyValue.dumpsAs_eq_ok.mpr ⟨_, hinner, htext'⟩, rfl⟩
  receipt := by
    intro messageId accepted durable text h
    obtain ⟨j, hj, hspaced⟩ := PyValue.dumpsAs_eq_ok.mp h
    obtain rfl : .obj [("message_id", .str messageId), ("accepted", .bool accepted), ("durable", .bool durable)] = j :=
      Option.some.inj hj
    cases hquote : Json.quote messageId with
    | none =>
      simp [Json.spaced, Json.spacedFields, Json.render, hquote] at hspaced
    | some literal =>
      obtain ⟨text', htext', hloads⟩ := Json.loads_spaced (j := .obj [("message_id", .str messageId),
        ("accepted", .bool accepted), ("durable", .bool durable)]) (by
          simp [Json.canonical, Json.render, Json.renderFields, hquote]) (by
          simp [Json.UniqueKeys, Json.UniqueFields])
      obtain rfl := Option.some.inj (htext'.symm.trans hspaced)
      rw [sortKeys_receipt] at hloads
      exact hloads

/-- A transport that accepts, and an outbox that does not fail. -/
def acceptingCall : CallEnvironment where
  opened := none
  transport := accepting.transport
  closed := none

theorem newReceipt_accepted : newReceipt .injective .builtin messageRequest acceptingCall = .ok (some keptReceipt) := by
  decide +kernel

/-- A call that returns is delivered. -/
theorem Delivered.call {py : Platform} {lib : PyLibrary} {past : List Delivery} {w : Outbox}
    (h : Delivered py lib past w) (request : ExecutionRequest) (env : CallEnvironment)
    {ended : Outcome PyException ExecutionResult × Hist ExecutionRequest Outbox OutboxStep}
    (hrun : outbox.run past.length request (OutboundMessageExecutor.execute py lib request) env.oracles ⟨w, []⟩ = ended)
    (hended : ended.1.ended = true) (hreturned : ended.1.raises = false) : ∃ r,
    Delivered py lib (⟨request, env, w, ended.2.world, ended.2.trace.map Entry.step, r⟩ :: past) ended.2.world := by
  obtain ⟨outcome, hist⟩ := ended
  cases outcome with
  | returned r => exact ⟨r, .cons h request env hrun⟩
  | raised e => cases hreturned
  | crashed => cases hended

/-- The step found a row. -/
def OutboxStep.finds : OutboxStep → Bool
  | .begin _ _ (.ok (true, _)) => true
  | _ => false

theorem Delivery.replayed_iff {d : Delivery} : d.Replayed ↔ d.steps.any OutboxStep.finds = true := by
  rw [List.any_eq_true]
  constructor
  · rintro ⟨key, fingerprint, text, hmem⟩
    exact ⟨_, hmem, rfl⟩
  · rintro ⟨s, hmem, hs⟩
    cases s with
    | begin key fingerprint r =>
      match r, hs with
      | .ok (true, text), _ => exact ⟨key, fingerprint, text, hmem⟩
    | finish key status receipt r => cases hs
    | send recipient subject body key r => cases hs

/-- The first call with that message, and the second. -/
def acceptedRun : Outcome PyException ExecutionResult × Hist ExecutionRequest Outbox OutboxStep :=
  outbox.run 0 messageRequest (OutboundMessageExecutor.execute .injective .builtin messageRequest)
    acceptingCall.oracles ⟨∅, []⟩

def replayedRun : Outcome PyException ExecutionResult × Hist ExecutionRequest Outbox OutboxStep :=
  outbox.run 1 messageRequest (OutboundMessageExecutor.execute .injective .builtin messageRequest)
    acceptingCall.oracles ⟨acceptedRun.2.world, []⟩

/-- A message that was accepted is replayed as it was. -/
theorem accepted_replayed : ∃ past w, Delivered .injective .builtin past w ∧ (∃ d ∈ past, d.Replayed) ∧
    Faithful .builtin past := by
  obtain ⟨r, hfirst⟩ := @Delivered.call .injective .builtin [] ∅ .nil messageRequest acceptingCall acceptedRun rfl
    (by decide +kernel) (by decide +kernel)
  obtain ⟨r', hrun⟩ := @Delivered.call .injective .builtin _ _ hfirst messageRequest acceptingCall replayedRun rfl
    (by decide +kernel) (by decide +kernel)
  have hfinds : (replayedRun.2.trace.map Entry.step).any OutboxStep.finds = true := by decide +kernel
  have hnew : (acceptedRun.2.trace.map Entry.step).any OutboxStep.finds = false := by decide +kernel
  have hprepared : (acceptedRun.2.world.lookup messageRequest.idempotencyKey).isSome := by decide +kernel
  -- the runs are not evaluated again
  generalize replayedRun = second at hrun hfinds
  generalize acceptedRun = first at hfirst hrun hnew hprepared
  refine ⟨_, _, hrun, ⟨_, List.mem_cons_self, Delivery.replayed_iff.mpr hfinds⟩,
    (faithful_iff Platform.injective_sha256 PyLibrary.builtin_serializes hrun).mpr ?_⟩
  rintro newer d older hpast hreplayed
  rcases newer with - | ⟨e, - | ⟨e', newer⟩⟩
  · obtain ⟨rfl, rfl⟩ := List.cons.inj hpast
    refine ⟨⟨_, List.mem_singleton.mpr rfl, ⟨rfl, Option.isSome_iff_exists.mp hprepared⟩, rfl⟩, _,
      ⟨[], [], rfl, rfl, fun _ h => (List.not_mem_nil h).elim⟩, ?_, ?_⟩
    · rintro (h | h | ⟨e, h, -⟩)
      · exact h rfl
      · exact nomatch newReceipt_accepted.symm.trans h
      · exact nomatch newReceipt_accepted.symm.trans h
    · rintro ⟨-, e, h, -⟩
      exact nomatch newReceipt_accepted.symm.trans h
  · obtain ⟨-, hpast⟩ := List.cons.inj hpast
    obtain ⟨rfl, rfl⟩ := List.cons.inj hpast
    exact nomatch hnew.symm.trans (Delivery.replayed_iff.mp hreplayed)
  · obtain ⟨-, hpast⟩ := List.cons.inj hpast
    obtain ⟨-, hpast⟩ := List.cons.inj hpast
    exact absurd hpast.symm (by simp)

/-- A message without a recipient. -/
def blankRequest : ExecutionRequest := { messageRequest with
  parameters := [(.str "recipient", .text " "), (.str "body", .text "b")] }

/-- **A replay changes FAILED into WRITE_STATUS_UNKNOWN.** -/
theorem blank_replayed : ∃ past w, Delivered .injective .builtin past w ∧ ¬ Faithful .builtin past := by
  refine ⟨_, _, .cons (.cons .nil blankRequest acceptingCall rfl) blankRequest acceptingCall rfl, fun h => ?_⟩
  obtain ⟨-, f, ⟨newer, older, hpast, -⟩, hstatus⟩ := h [] _ _ rfl ⟨_, _, _, List.mem_singleton.mpr rfl⟩
  have hf : f ∈ newer ++ f :: older := List.mem_append_right _ List.mem_cons_self
  rw [← hpast] at hf
  obtain rfl := List.mem_singleton.mp hf
  cases hstatus

end Rpr
