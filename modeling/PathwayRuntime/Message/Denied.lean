import PathwayRuntime.Message.Once
import PathwayRuntime.Model.System
import PathwayRuntime.Python.Builtins
import PathwayRuntime.Resume.Threads

/-!
# Sends that are denied

A call that returns FAILED says that nothing was sent under its key.

* `Denial`: what a call did that returns FAILED; `execute_denial`: every such call did one of these.
* `Denies`: an action ends a call with FAILED although its key was sent under.
* `Careful`: the runs in which, once a key was sent under, nothing is raised but what `execute` takes to be ambiguous.
* **`careful_honest`**: in a careful run no send is denied.
-/

set_option autoImplicit false

namespace Rpr

open Resume

/-! ## What is raised -/

/-- `execute` does not return FAILED on such an exception. -/
def PyException.IsAmbiguous (e : PyException) : Prop :=
  e.isAny ["OSError", "TimeoutError", "ConnectionError"] = true ∨ e.isA "Exception" = false

/-- Nothing else is raised. -/
def RaisesAmbiguous {α : Type} (x : Except PyException α) : Prop := ∀ e, x = .error e → e.IsAmbiguous

/-- What becomes of the answer of the transport: its receipt, written. -/
def writtenReceipt (lib : PyLibrary) (answer : PyValue) : Except PyException (List Char) := do
  let receipt ← receiptValue lib (← lib.dict answer)
  lib.dumps (.dict receipt)

theorem writtenReceipt_eq (lib : PyLibrary) (answer : PyValue) : writtenReceipt lib answer =
    ((do receiptValue lib (← lib.dict answer)) >>= fun receipt => lib.dumps (.dict receipt)) := by
  rw [writtenReceipt]
  cases lib.dict answer <;> rfl

/-- The receipt that is stored, decoded. -/
def storedResult (lib : PyLibrary) (text : List Char) : Except PyException ExecutionResult := do
  fromStored lib (← lib.loads text)

/-- What the documentation of `bool` and `str` says of a truth value and of a text. -/
structure PyLibrary.Documented (lib : PyLibrary) : Prop where
  bool : ∀ b, lib.bool (.bool b) = .ok b
  str : ∀ s, lib.str (.str s) = .ok s

/-! ## What a call did that returns FAILED -/

section Denial

variable (py : Platform) (lib : PyLibrary) (request : ExecutionRequest)

/-- The steps of a call that returns FAILED, newest first. -/
inductive Denial : List OutboxStep → Prop
  | unsupported (h : request.action ≠ "send_message") : Denial []
  | unwritten {e : PyException} (h : messageFingerprint py lib request = .error e) (he : ¬ e.IsAmbiguous) : Denial []
  | refused {fingerprint : String} {e : PyException} (he : ¬ e.IsAmbiguous) :
    Denial [.begin request.idempotencyKey fingerprint (.error e)]
  | unread {fingerprint : String} {text : List Char} {e : PyException} (h : storedResult lib text = .error e)
    (he : ¬ e.IsAmbiguous) : Denial [.begin request.idempotencyKey fingerprint (.ok (true, some text))]
  | prepared {fingerprint : String} {stored : Option (List Char)} :
    Denial [.begin request.idempotencyKey fingerprint (.ok (false, stored))]
  | recorded {fingerprint status : String} {stored receipt : Option (List Char)} {r : Except PyException Unit} :
    Denial [.finish request.idempotencyKey status receipt r,
      .begin request.idempotencyKey fingerprint (.ok (false, stored))]
  | transport {fingerprint : String} {stored : Option (List Char)} {recipient subject body : PyText} {e : PyException}
    (he : ¬ e.IsAmbiguous) : Denial [.send recipient subject body request.idempotencyKey (.error e),
      .begin request.idempotencyKey fingerprint (.ok (false, stored))]
  | receipt {fingerprint : String} {stored : Option (List Char)} {recipient subject body : PyText} {answer : PyValue}
    {e : PyException} (h : writtenReceipt lib answer = .error e) (he : ¬ e.IsAmbiguous) :
    Denial [.send recipient subject body request.idempotencyKey (.ok answer),
      .begin request.idempotencyKey fingerprint (.ok (false, stored))]
  | lost {fingerprint status : String} {stored receipt : Option (List Char)} {recipient subject body : PyText}
    {r : Except PyException PyValue} {e : PyException} (he : ¬ e.IsAmbiguous) :
    Denial [.finish request.idempotencyKey status receipt (.error e),
      .send recipient subject body request.idempotencyKey r,
      .begin request.idempotencyKey fingerprint (.ok (false, stored))]

/-- A call that returns FAILED, or raises what makes it return FAILED, did one of these. -/
def Explained (x : Except PyException ExecutionResult) (own : List OutboxStep) : Prop :=
  match x with
  | .ok r => r.status = .failed → Denial py lib request own
  | .error e => ¬ e.IsAmbiguous → Denial py lib request own

end Denial

section Program

variable {py : Platform} {lib : PyLibrary} {request : ExecutionRequest}

theorem fromReceipt_status {receipt : PyDict} {r : ExecutionResult} (h : fromReceipt lib receipt = .ok r) :
    r.status ≠ .failed := by
  obtain ⟨accepted, -, h⟩ := except_bind_eq_ok.mp h
  cases accepted with
  | false =>
    cases h
    exact nofun
  | true =>
    obtain ⟨durable, -, h⟩ := except_bind_eq_ok.mp h
    cases durable with
    | false =>
      cases h
      exact nofun
    | true =>
      obtain ⟨messageId, -, h⟩ := except_bind_eq_ok.mp h
      cases h
      dsimp only
      split_ifs <;> exact nofun

theorem fromStored_status {j : Json} {r : ExecutionResult} (h : fromStored lib j = .ok r) : r.status ≠ .failed := by
  cases j with
  | obj fields => exact fromReceipt_status h
  | null | bool _ | int _ | float _ | str _ | arr _ => cases h

/-- The receipt that was kept is read without raising. -/
theorem exists_fromReceipt (hlib : lib.Documented) {raw receipt : PyDict} (h : receiptValue lib raw = .ok receipt) :
    ∃ r, fromReceipt lib receipt = .ok r := by
  obtain ⟨messageId, -, h⟩ := except_bind_eq_ok.mp h
  obtain ⟨accepted, -, h⟩ := except_bind_eq_ok.mp h
  obtain ⟨durable, -, h⟩ := except_bind_eq_ok.mp h
  cases h
  rw [fromReceipt]
  have haccepted : lib.bool ((PyDict.get? [(.str "message_id", .str messageId.strip), (.str "accepted", .bool accepted),
      (.str "durable", .bool durable)] "accepted").getD .none) = .ok accepted := hlib.bool accepted
  have hdurable : lib.bool ((PyDict.get? [(.str "message_id", .str messageId.strip), (.str "accepted", .bool accepted),
      (.str "durable", .bool durable)] "durable").getD .none) = .ok durable := hlib.bool durable
  have hmessage : lib.str ((PyDict.get? [(.str "message_id", .str messageId.strip), (.str "accepted", .bool accepted),
      (.str "durable", .bool durable)] "message_id").getD (.text "")) = .ok messageId.strip := hlib.str messageId.strip
  rw [haccepted, hdurable, hmessage]
  cases accepted <;> cases durable <;> exact ⟨_, rfl⟩

/-- Any steps, and this end of the call. -/
abbrev EndsCall {α : Type} (Q : Except PyException α → List OutboxStep → Prop) (p : OutboxProg α)
    (own : List OutboxStep) : Prop :=
  Prog.Traced outbox.label (fun _ _ => True) Q p own

/-- `begin` raises what makes the call return FAILED, or prepares a row, or finds one. -/
theorem begin_explained : EndsCall (fun x own => match x with
      | .ok (false, _) => ∃ fingerprint text, own = [.begin request.idempotencyKey fingerprint (.ok (false, text))]
      | .ok (true, receipt) => ∃ fingerprint text,
        own = [.begin request.idempotencyKey fingerprint (.ok (true, text))] ∧
          ∀ j, receipt = some j → ∃ text', text = some text' ∧ lib.loads text' = .ok j
      | .error e => ¬ e.IsAmbiguous → Denial py lib request own)
    (SQLiteOutbox.begin py lib request) [] := by
  rw [SQLiteOutbox.begin]
  cases hfingerprint : messageFingerprint py lib request with
  | error e => exact fun he => .unwritten hfingerprint he
  | ok fingerprint =>
    intro r
    refine ⟨trivial, ?_⟩
    cases r with
    | error e => exact fun he => .refused he
    | ok r =>
      obtain ⟨replayed, _ | text⟩ := r
      · cases replayed with
        | false => exact ⟨fingerprint, none, rfl⟩
        | true => exact ⟨fingerprint, none, rfl, fun _ h => by cases h⟩
      · show EndsCall _ (Prog.bind (Prog.ofExcept (lib.loads text)) fun j => .ret (replayed, some j)) _
        cases hloads : lib.loads text with
        | error e =>
          intro he
          cases replayed with
          | false => exact .prepared
          | true => exact .unread (by rw [storedResult, hloads]; rfl) he
        | ok j =>
          cases replayed with
          | false => exact ⟨fingerprint, some text, rfl⟩
          | true =>
            refine ⟨fingerprint, some text, rfl, fun j' hj' => ⟨text, rfl, ?_⟩⟩
            rw [hloads, Option.some.inj hj']

/-- What follows the answer of the transport: its receipt is stored, and then read. -/
theorem answered_explained (hlib : lib.Documented) (fingerprint : String) (stored : Option (List Char))
    {recipient subject body : PyText} {answer : PyValue} :
    EndsCall (Explained py lib request) (do
        let receipt ← Prog.ofExcept (do receiptValue lib (← lib.dict answer))
        SQLiteOutbox.finish lib request.idempotencyKey "finished" (some receipt)
        Prog.ofExcept (fromReceipt lib receipt))
      [.send recipient subject body request.idempotencyKey (.ok answer),
        .begin request.idempotencyKey fingerprint (.ok (false, stored))] := by
  cases hreceipt : (do receiptValue lib (← lib.dict answer) : Except PyException PyDict) with
  | error e => exact fun he => .receipt (by rw [writtenReceipt_eq, hreceipt]; rfl) he
  | ok receipt =>
    simp only [Prog.bind_eq, Prog.ofExcept, Prog.bind, SQLiteOutbox.finish]
    cases hdumps : lib.dumps (.dict receipt) with
    | error e => exact fun he => .receipt (by rw [writtenReceipt_eq, hreceipt]; exact hdumps) he
    | ok encoded =>
      intro r
      refine ⟨trivial, ?_⟩
      cases r with
      | error e => exact fun he => .lost he
      | ok u =>
        obtain ⟨raw, -, hraw⟩ := except_bind_eq_ok.mp hreceipt
        obtain ⟨result, hresult⟩ := exists_fromReceipt hlib hraw
        refine (Prog.traced_ofExcept _ _ _).mpr ?_
        rw [hresult]
        exact fun hr => absurd hr (fromReceipt_status hresult)

/-- What follows the prepared row. -/
theorem dispatch_explained (hlib : lib.Documented) (fingerprint : String) (stored : Option (List Char)) :
    EndsCall (Explained py lib request) (OutboundMessageExecutor.dispatch lib request)
      [.begin request.idempotencyKey fingerprint (.ok (false, stored))] := by
  rw [OutboundMessageExecutor.dispatch]
  refine Prog.Traced.ofExcept_bind (fun recipient => ?_) fun _ _ => .prepared
  refine Prog.Traced.ofExcept_bind (fun subject => ?_) fun _ _ => .prepared
  refine Prog.Traced.ofExcept_bind (fun body => ?_) fun _ _ => .prepared
  split_ifs with hempty
  · intro r
    refine ⟨trivial, ?_⟩
    cases r with
    | error e => exact fun _ => .recorded
    | ok u => exact fun _ => .recorded
  · intro r
    refine ⟨trivial, ?_⟩
    cases r with
    | error e => exact fun he => .transport he
    | ok answer =>
      exact answered_explained hlib fingerprint stored

/-- **A call that returns FAILED did one of these.** -/
theorem execute_denial (hlib : lib.Documented) : EndsCall (fun x own => ∀ r, x = .ok r → r.status = .failed →
    Denial py lib request own) (OutboundMessageExecutor.execute py lib request) [] := by
  rw [OutboundMessageExecutor.execute]
  split_ifs with haction
  · exact fun _ _ _ => .unsupported haction
  have hattempt : EndsCall (Explained py lib request) (OutboundMessageExecutor.attempt py lib request) [] := by
    refine begin_explained.bind (fun r own hown => ?_) fun e own hown => hown
    obtain ⟨_ | _, receipt⟩ := r
    · obtain ⟨fingerprint, text, rfl⟩ := hown
      exact dispatch_explained hlib fingerprint text
    · obtain ⟨fingerprint, text, rfl, hloads⟩ := hown
      cases receipt with
      | none => exact fun h => by cases h
      | some receipt =>
        obtain ⟨text, rfl, hread⟩ := hloads receipt rfl
        refine (Prog.traced_ofExcept _ _ _).mpr ?_
        cases hresult : fromStored lib receipt with
        | ok r => exact fun hr => absurd hr (fromStored_status hresult)
        | error e => exact fun he => .unread (by rw [storedResult, hread]; exact hresult) he
  refine (Prog.traced_tryCatch _ _ _ _).mpr (hattempt.mono fun x own hx => ?_)
  cases x with
  | ok r => exact fun r' hr' hstatus => hx (by rwa [Except.ok.inj hr'])
  | error e =>
    simp only [OutboundMessageExecutor.handle]
    split_ifs with hos hexception
    · exact fun r hr hstatus => by cases hr; cases hstatus
    · exact fun r hr hstatus => hx (not_or.mpr ⟨hos, by rw [hexception]; decide⟩)
    · exact fun r hr => by cases hr

end Program

/-! ## Careful runs -/

abbrev OutboxAction : Type := Machine.Action ExecutionRequest OutboxOracle

abbrev OutboxPool : Type :=
  Machine.Pool OutboxOp OutboxOp.Res ExecutionRequest Outbox OutboxStep PyException ExecutionResult

section Runs

variable (py : Platform) (lib : PyLibrary)

/-- Once the key of a transaction was sent under, the transaction raises ambiguous exceptions only, and a call that
finds its row has its fingerprint and can read its receipt. What the transport answers can be stored as a receipt. -/
def OutboxOp.Careful (sent : List String) (w : Outbox) (o : OutboxOracle) : OutboxOp → Prop
  | .begin key fingerprint => key ∈ sent → (∀ e c, o.failure = some (e, c) → e.IsAmbiguous) ∧
      (o.failure = none → ∀ row, w.lookup key = some row → row.fingerprint = fingerprint ∧
        ∀ text, row.receiptJson = some text → RaisesAmbiguous (storedResult lib text))
  | .finish key _ _ => key ∈ sent → ∀ e c, o.failure = some (e, c) → e.IsAmbiguous
  | .send .. => RaisesAmbiguous o.transport ∧
      ∀ answer, o.transport = .ok answer → RaisesAmbiguous (writtenReceipt lib answer)

/-- A call is made under a key that was sent under for a message again, with parameters that can be written. -/
def CarefulAct (p : OutboxPool) : OutboxAction → Prop
  | .invoke request => request.idempotencyKey ∈ sends p.hist →
      request.action = "send_message" ∧ RaisesAmbiguous (messageFingerprint py lib request)
  | .step t o => ∀ request op k, p.threads t = some (request, .call op k) →
      op.Careful lib (sends p.hist) p.hist.world o
  | .crash _ => True

/-- Every action is careful in the state it is taken in. -/
def Careful (p : OutboxPool) : List OutboxAction → Prop
  | [] => True
  | a :: acts => CarefulAct py lib p a ∧ Careful (outbox.act (OutboundMessageExecutor.execute py lib) p a) acts

/-- The action ends a call with FAILED, and the key of the call was sent under. -/
def Denies (p : OutboxPool) (a : OutboxAction) : Prop :=
  ∃ t request r, (outbox.act (OutboundMessageExecutor.execute py lib) p a).threads t = some (request, .ret r) ∧
    (∀ r', p.threads t ≠ some (request, .ret r')) ∧ r.status = .failed ∧
      request.idempotencyKey ∈ sends (outbox.act (OutboundMessageExecutor.execute py lib) p a).hist

/-- No action denies a send. -/
def Honest (p : OutboxPool) : List OutboxAction → Prop
  | [] => True
  | a :: acts => ¬ Denies py lib p a ∧ Honest (outbox.act (OutboundMessageExecutor.execute py lib) p a) acts

end Runs

section Careful

variable {py : Platform} {lib : PyLibrary} {w₀ w : Outbox} {tr : List (Entry ExecutionRequest Outbox OutboxStep)}

/-- What was sent under a key was sent by the call that prepared its row. -/
theorem sent_by_preparer (h : outbox.Guarded SendsOnce w₀ tr w) {key : String}
    (hkey : key ∈ tr.filterMap fun e => e.step.sent) : ∃ e ∈ tr, e.step.prepared = some key ∧
      ∃ s ∈ own e.tid tr, s.sent = some key := by
  obtain ⟨e, he, hsent⟩ := List.mem_filterMap.mp hkey
  obtain ⟨newer, older, rfl⟩ := List.append_of_mem he
  obtain ⟨-, hguard⟩ := h.of_append
  obtain ⟨fingerprint, stored, hown, rfl⟩ := hguard key hsent
  have hbegin : OutboxStep.begin e.caller.idempotencyKey fingerprint (.ok (false, stored)) ∈ own e.tid older := by
    rw [hown]
    exact List.mem_singleton.mpr rfl
  obtain ⟨e', he', htid, hstep⟩ := mem_own.mp hbegin
  refine ⟨e', List.mem_append_right _ (List.mem_cons_of_mem _ he'), by rw [hstep]; rfl, e.step, ?_, hsent⟩
  rw [htid]
  exact mem_own.mpr ⟨e, he, rfl, rfl⟩

/-- A key that was sent under has a row. -/
theorem holds_of_sent (h : outbox.Guarded SendsOnce w₀ tr w) {key : String}
    (hkey : key ∈ tr.filterMap fun e => e.step.sent) : w.holds key := by
  obtain ⟨e, he, hprepared, -⟩ := sent_by_preparer h hkey
  exact outbox_single.held_of_taken h e he key hprepared

/-- A call that prepared the row of a key has sent under it, when any call has. -/
theorem sent_of_prepared (h : outbox.Guarded SendsOnce w₀ tr w) {key : String}
    (hkey : key ∈ tr.filterMap fun e => e.step.sent) {t : ℕ} {s : OutboxStep} (hs : s ∈ own t tr)
    (hprepared : s.prepared = some key) : ∃ s ∈ own t tr, s.sent = some key := by
  obtain ⟨e, he, hprepared', hsent⟩ := sent_by_preparer h hkey
  obtain ⟨e', he', rfl, rfl⟩ := mem_own.mp hs
  rwa [outbox_single.taker_unique h e' he' e he key hprepared hprepared']

/-- Why a transaction of `begin` raises. -/
theorem begin_raises {key fingerprint : String} {o : OutboxOracle} {w : Outbox} {e : PyException}
    (h : (Outbox.begin key fingerprint o w).1 = .error e) : (∃ c, o.failure = some (e, c)) ∨
      o.failure = none ∧ ∃ row, w.lookup key = some row ∧ row.fingerprint ≠ fingerprint := by
  rw [Outbox.begin] at h
  split at h
  · rename_i row hrow
    split at h
    · rename_i e' c hfail
      obtain rfl := Except.error.inj h
      exact .inl ⟨c, hfail⟩
    · rename_i hfail
      split_ifs at h with hfingerprint
      exact .inr ⟨hfail, row, hrow, hfingerprint⟩
  · split at h
    · rename_i e' c hfail
      obtain rfl := Except.error.inj h
      exact .inl ⟨c, hfail⟩
    · cases h

/-- What a transaction of `begin` finds. -/
theorem begin_finds {key fingerprint : String} {o : OutboxOracle} {w : Outbox} {text : List Char}
    (h : (Outbox.begin key fingerprint o w).1 = .ok (true, some text)) :
    o.failure = none ∧ ∃ row, w.lookup key = some row ∧ row.receiptJson = some text := by
  rw [Outbox.begin] at h
  split at h
  · rename_i row hrow
    split at h
    · cases h
    · rename_i hfail
      split_ifs at h
      exact ⟨hfail, row, hrow, (Prod.mk.inj (Except.ok.inj h)).2⟩
  · split at h <;> cases h

/-- **A careful operation does not make a call deny a send**: one case for each denial. -/
theorem not_denial_of_careful {request : ExecutionRequest} {t : ℕ} {op : OutboxOp} {o : OutboxOracle}
    (h : outbox.Guarded SendsOnce w₀ tr w) (hcareful : op.Careful lib (tr.filterMap fun e => e.step.sent) w o)
    (hdenial : Denial py lib request (outbox.label op (outbox.exec op o w).1 :: own t tr))
    (hsent : request.idempotencyKey ∈ tr.filterMap (fun e => e.step.sent) ∨
      (outbox.label op (outbox.exec op o w).1).sent = some request.idempotencyKey) : False := by
  cases op with
  | begin key fingerprint =>
    have hbefore : request.idempotencyKey ∈ tr.filterMap fun e => e.step.sent := hsent.resolve_right fun h => by cases h
    clear hsent
    simp only [outbox] at hdenial
    generalize hr : (Outbox.begin key fingerprint o w).1 = r at hdenial
    generalize own t tr = steps at hdenial
    cases hdenial with
    | refused he =>
      obtain ⟨hfailure, hrow⟩ := hcareful hbefore
      rcases begin_raises hr with ⟨c, hfail⟩ | ⟨hfail, row, hlookup, hne⟩
      · exact he (hfailure _ c hfail)
      · exact hne (hrow hfail row hlookup).1
    | unread hread he =>
      obtain ⟨hfail, row, hlookup, htext⟩ := begin_finds hr
      exact he (((hcareful hbefore).2 hfail row hlookup).2 _ htext _ hread)
    | prepared => exact (Outbox.begin_fresh hr).1 (holds_of_sent h hbefore)
  | finish key status receipt =>
    have hbefore : request.idempotencyKey ∈ tr.filterMap fun e => e.step.sent := hsent.resolve_right fun h => by cases h
    clear hsent
    simp only [outbox] at hdenial
    generalize hr : (Outbox.finish key status receipt o w).1 = r at hdenial
    generalize hown : own t tr = steps at hdenial
    cases hdenial with
    | recorded =>
      obtain ⟨s, hs, hkey⟩ := sent_of_prepared h hbefore (t := t) (by rw [hown]; exact List.mem_singleton.mpr rfl) rfl
      rw [hown] at hs
      obtain rfl := List.mem_singleton.mp hs
      cases hkey
    | lost he =>
      rw [Outbox.finish] at hr
      split at hr
      · rename_i e c hfail
        obtain rfl := Except.error.inj hr
        exact he (hcareful hbefore _ c hfail)
      · cases hr
  | send recipient subject body key =>
    simp only [outbox] at hdenial
    generalize hr : o.transport = r at hdenial
    generalize own t tr = steps at hdenial
    cases hdenial with
    | transport he => exact he (hcareful.1 _ hr)
    | receipt hreceipt he => exact he (hcareful.2 _ hr _ hreceipt)

/-- **A careful action denies no send.** -/
theorem not_denies (hlib : lib.Documented) {p : OutboxPool} (hok : p.Ok outbox SendsOnce w₀)
    (hresumes : p.Resumes outbox (OutboundMessageExecutor.execute py lib)) {a : OutboxAction}
    (ha : CarefulAct py lib p a) : ¬ Denies py lib p a := by
  rintro ⟨t, request, r, hreturned, hrunning, hstatus, hsent⟩
  have hdenial := (hresumes.act a).returned hreturned (execute_denial hlib) r rfl hstatus
  cases a with
  | invoke c =>
    by_cases ht : t = p.next
    · subst ht
      simp only [Machine.act, Function.update_self, Option.some.injEq, Prod.mk.injEq] at hreturned
      obtain ⟨rfl, -⟩ := hreturned
      obtain ⟨haction, hwritten⟩ := ha hsent
      have hown : own p.next (outbox.act (OutboundMessageExecutor.execute py lib) p (.invoke c)).hist.trace = [] :=
        own_eq_nil fun e he => (hresumes.fresh e he).ne
      rw [hown] at hdenial
      cases hdenial with
      | unsupported h => exact h haction
      | unwritten h he => exact he (hwritten _ h)
    · simp only [Machine.act, Function.update_of_ne ht] at hreturned
      exact hrunning r hreturned
  | step u o =>
    simp only [Machine.act] at hreturned hdenial hsent
    split at hreturned
    · rename_i c op k hk
      by_cases ht : t = u
      · subst ht
        simp only [Function.update_self, Option.some.injEq, Prod.mk.injEq] at hreturned
        obtain ⟨rfl, -⟩ := hreturned
        simp only [hk] at hdenial hsent
        rw [show own t _ = _ from own_cons_self _ _] at hdenial
        refine not_denial_of_careful hok.trace (ha c op k hk) hdenial ?_
        obtain ⟨e, he, hkey⟩ := List.mem_filterMap.mp hsent
        rcases List.mem_cons.mp he with rfl | he
        · exact .inr hkey
        · exact .inl (List.mem_filterMap.mpr ⟨e, he, hkey⟩)
      · simp only [Function.update_of_ne ht] at hreturned
        exact hrunning r hreturned
    · exact hrunning r hreturned
  | crash u =>
    by_cases ht : t = u
    · simp [Machine.act, ht] at hreturned
    · simp only [Machine.act, Function.update_of_ne ht] at hreturned
      exact hrunning r hreturned

/-- **In a careful run no send is denied**: whatever the table holds, and however calls of `execute` are interleaved
and crash, a call that returns FAILED does so before anything was sent under its key. -/
theorem careful_honest (hlib : lib.Documented) (w : Outbox) (acts : List OutboxAction)
    (h : Careful py lib (.idle ⟨w, []⟩ 0) acts) : Honest py lib (.idle ⟨w, []⟩ 0) acts := by
  have hrun : ∀ p : OutboxPool, p.Ok outbox SendsOnce w → p.Resumes outbox (OutboundMessageExecutor.execute py lib) →
      Careful py lib p acts → Honest py lib p acts := by
    clear h
    induction acts with
    | nil => exact fun _ _ _ _ => trivial
    | cons a acts ih =>
      intro p hok hresumes h
      exact ⟨not_denies hlib hok hresumes h.1, ih _ (hok.act (execute_sendsOnce py lib) a) (hresumes.act a) h.2⟩
  exact hrun _ (Machine.Pool.ok_idle .nil fun e he => absurd he List.not_mem_nil)
    (Machine.Pool.resumes_idle fun e he => absurd he List.not_mem_nil) h

end Careful

/-! ## A receipt that is lost -/

/-- The built-in functions, of values without foreign objects. -/
def PyLibrary.builtin : PyLibrary where
  canonical := PyValue.dumpsAs (fun _ => none) Json.canonical
  dumps := PyValue.dumpsAs (fun _ => none) Json.spaced
  loads := Json.unlimitedLoads
  str := PyValue.string .sample
  bool v := .ok v.truthy
  dict := PyValue.mapping

theorem PyLibrary.builtin_documented : PyLibrary.builtin.Documented := ⟨fun _ => rfl, fun _ => rfl⟩

theorem sendMessage_required : isBlank "send_message" = false := by decide

/-- A message, and a transport that accepts it. -/
def messageRequest : ExecutionRequest := { requestA with
  action := "send_message"
  parameters := [(.str "recipient", .text "a"), (.str "body", .text "b")]
  action_required := sendMessage_required }

def accepting : OutboxOracle where
  failure := none
  transport := .ok (.ofFields [("message_id", .text "m"), ("accepted", .bool true), ("durable", .bool true)])

/-- The fingerprint of the message. -/
def messageDigest : String := "3798970588"

/-- The receipt of that message, stored. -/
def keptReceipt : List Char := "\x7b\"accepted\": true, \"durable\": true, \"message_id\": \"m\"\x7d".toList

theorem storedResult_keptReceipt : (storedResult .builtin keptReceipt).toOption.isSome := by decide +kernel

theorem careful_honest_replayed : Honest .sample .builtin (.idle ⟨∅, []⟩ 0)
    [.invoke messageRequest, .step 0 accepting, .step 0 accepting, .step 0 accepting, .invoke messageRequest,
      .step 1 accepting] := by
  have hfailure : ∀ e c, accepting.failure = some (e, c) → e.IsAmbiguous := fun e c h => by cases h
  refine careful_honest PyLibrary.builtin_documented ∅ _ ⟨fun h => (List.not_mem_nil h).elim,
    ⟨?_, ⟨?_, ⟨?_, ⟨fun _ => ⟨rfl, fun e h => by cases h⟩, ⟨?_, trivial⟩⟩⟩⟩⟩⟩
  · rintro request op k h
    cases h
    exact fun h => by cases h
  · rintro request op k h
    cases h
    exact ⟨nofun, fun answer h => by
      cases h
      exact nofun⟩
  · rintro request op k h
    cases h
    exact fun _ => hfailure
  · rintro request op k h
    cases h
    refine fun _ => ⟨hfailure, fun _ row h => ?_⟩
    obtain rfl : row = ⟨messageDigest, "finished", some keptReceipt⟩ :=
      Option.some.inj (h.symm.trans (by decide +kernel))
    refine ⟨by decide +kernel, fun text htext e he => ?_⟩
    obtain rfl := Option.some.inj htext
    have hread := storedResult_keptReceipt
    rw [he] at hread
    cases hread

/-- A database that is locked when the receipt is stored. -/
def locked : OutboxOracle := { accepting with
  failure := some (.ofClass "OperationalError" ["DatabaseError", "Error"] "database is locked", false) }

/-- **A send is denied**: the receipt of a message that was sent cannot be stored, and the call returns FAILED. -/
theorem send_denied : ¬ Honest .sample .builtin (.idle ⟨∅, []⟩ 0)
    [.invoke messageRequest, .step 0 accepting, .step 0 accepting, .step 0 locked] := by
  rintro ⟨-, -, -, hdenies, -⟩
  refine hdenies ⟨0, messageRequest, ⟨.failed, [], none, some "message_executor_error:OperationalError"⟩, ?_, ?_,
    rfl, ?_⟩
  · rfl
  · exact fun r h => by cases h
  · exact List.mem_singleton.mpr rfl

end Rpr
