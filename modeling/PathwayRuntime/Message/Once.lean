import PathwayRuntime.Model.Outbox
import PathwayRuntime.Resume.Once

/-!
# One send a key

* `SendsOnce`: a call sends under its own key, right after it prepared the row of that key.
* `execute_sendsOnce`: every call of `OutboundMessageExecutor.execute` does.
* `outbox_single`: rows are kept for good, and a row is prepared only for a key that has none.
* **`sends_once`**: no key is sent under twice.
-/

set_option autoImplicit false

namespace Rpr

open Resume

/-- The key a step prepared a row for. -/
def OutboxStep.prepared : OutboxStep → Option String
  | .begin key _ (.ok (false, _)) => some key
  | _ => none

/-- A send is made under the request's key, as the step after its row was prepared. -/
def SendsOnce (request : ExecutionRequest) (own : List OutboxStep) (s : OutboxStep) : Prop :=
  ∀ key, s.sent = some key → ∃ fingerprint stored,
    own = [.begin request.idempotencyKey fingerprint (.ok (false, stored))] ∧
      key = request.idempotencyKey

section Program

variable {py : Platform} {lib : PyLibrary} {request : ExecutionRequest}

theorem sendsOnce_of_sent_none {own : List OutboxStep} {s : OutboxStep} (h : s.sent = none) :
    SendsOnce request own s := by
  intro key hkey
  rw [h] at hkey
  cases hkey

/-- The traces along which calls send once. -/
abbrev Sending (request : ExecutionRequest) {α : Type} (Q : Except PyException α → List OutboxStep → Prop)
    (p : OutboxProg α) (own : List OutboxStep) : Prop :=
  Prog.Traced outbox.label (SendsOnce request) Q p own

/-- `finish` sends nothing. -/
theorem finish_sendsOnce (key status : String) (receipt : Option PyDict) (own : List OutboxStep) :
    Sending request (fun _ _ => True) (SQLiteOutbox.finish lib key status receipt) own := by
  have hcall : ∀ encoded, Sending request (fun _ _ => True) (OutboxProg.finish key status encoded) own :=
    fun encoded r => ⟨sendsOnce_of_sent_none rfl, (Prog.traced_ofExcept _ r _).mpr trivial⟩
  cases receipt with
  | none => exact hcall none
  | some receipt => exact Prog.Traced.ofExcept_bind (fun encoded => hcall (some encoded)) fun _ => trivial

/-- What follows the prepared row sends under the request's key, first of all. -/
theorem dispatch_sendsOnce (fingerprint : String) (stored : Option (List Char)) :
    Sending request (fun _ _ => True) (OutboundMessageExecutor.dispatch lib request)
      [.begin request.idempotencyKey fingerprint (.ok (false, stored))] := by
  rw [OutboundMessageExecutor.dispatch]
  refine Prog.Traced.ofExcept_bind (fun recipient => ?_) fun _ => trivial
  refine Prog.Traced.ofExcept_bind (fun subject => ?_) fun _ => trivial
  refine Prog.Traced.ofExcept_bind (fun body => ?_) fun _ => trivial
  split_ifs with hempty
  · exact (finish_sendsOnce _ _ _ _).bind (fun _ _ _ => trivial) fun _ _ _ => trivial
  · have hsend : Sending request (fun _ _ => True)
        (OutboxProg.send recipient.strip subject body request.idempotencyKey)
        [.begin request.idempotencyKey fingerprint (.ok (false, stored))] :=
      fun r => ⟨fun key hkey => ⟨fingerprint, stored, rfl, (Option.some.inj hkey).symm⟩,
        (Prog.traced_ofExcept _ r _).mpr trivial⟩
    refine hsend.bind (fun answer own _ => ?_) fun _ _ _ => trivial
    refine Prog.Traced.ofExcept_bind (fun receipt => ?_) fun _ => trivial
    exact (finish_sendsOnce _ _ _ _).bind
      (fun _ _ _ => (Prog.traced_ofExcept _ _ _).mpr trivial) fun _ _ _ => trivial

/-- `begin` prepares a row or finds one. -/
theorem begin_sendsOnce : Sending request (fun x own => ∀ stored, x = .ok (false, stored) →
      ∃ fingerprint text, own = [.begin request.idempotencyKey fingerprint (.ok (false, text))])
    (SQLiteOutbox.begin py lib request) [] := by
  rw [SQLiteOutbox.begin]
  refine Prog.Traced.ofExcept_bind (fun fingerprint => ?_) fun e stored h => by cases h
  have hbegin : Sending request (fun x own => own = [.begin request.idempotencyKey fingerprint x])
      (OutboxProg.begin request.idempotencyKey fingerprint) [] :=
    fun r => ⟨sendsOnce_of_sent_none rfl, (Prog.traced_ofExcept _ r _).mpr rfl⟩
  refine hbegin.bind (fun r own hown => ?_) fun e own hown stored h => by cases h
  obtain ⟨replayed, receipt⟩ := r
  cases receipt with
  | none =>
    intro stored h
    obtain ⟨rfl, -⟩ := Prod.mk.inj (Except.ok.inj h)
    exact ⟨fingerprint, none, hown⟩
  | some text =>
    refine Prog.Traced.ofExcept_bind (fun j stored h => ?_) fun e stored h => by cases h
    obtain ⟨rfl, -⟩ := Prod.mk.inj (Except.ok.inj h)
    exact ⟨fingerprint, some text, hown⟩

/-- **Every call sends under its own key, right after it prepared the row of that key.** -/
theorem execute_sendsOnce (py : Platform) (lib : PyLibrary) (request : ExecutionRequest) :
    Sending request (fun _ _ => True) (OutboundMessageExecutor.execute py lib request) [] := by
  rw [OutboundMessageExecutor.execute]
  split_ifs with haction
  · trivial
  have hattempt : Sending request (fun _ _ => True)
      (OutboundMessageExecutor.attempt py lib request) [] := by
    refine begin_sendsOnce.bind (fun r own hown => ?_) fun _ _ _ => trivial
    obtain ⟨replayed, receipt⟩ := r
    cases replayed with
    | true =>
      cases receipt with
      | none => trivial
      | some receipt => exact (Prog.traced_ofExcept _ _ _).mpr trivial
    | false =>
      obtain ⟨fingerprint, text, rfl⟩ := hown receipt rfl
      exact dispatch_sendsOnce fingerprint text
  refine (Prog.traced_tryCatch _ _ _ _).mpr (hattempt.mono fun x own _ => ?_)
  cases x with
  | ok a => trivial
  | error e =>
    simp only [OutboundMessageExecutor.handle]
    split_ifs <;> trivial

end Program

/-- Whether the key has a row. -/
def Outbox.holds (w : Outbox) (key : String) : Prop := key ∈ w

theorem Outbox.holds_insert {key : String} {row : OutboxRow} {w : Outbox} {k : String}
    (h : w.holds k) : Outbox.holds (w.insert key row) k :=
  (AList.mem_insert w).mpr (.inr h)

theorem Outbox.holds_update {key status : String} {receipt : Option (List Char)} {w : Outbox}
    {k : String} (h : w.holds k) : (w.update key status receipt).holds k := by
  rw [Outbox.update]
  split
  · exact holds_insert h
  · exact h

/-- A transaction of `begin` keeps every row. -/
theorem Outbox.holds_begin {key fingerprint : String} {o : OutboxOracle} {w : Outbox} {k : String}
    (h : w.holds k) : (Outbox.begin key fingerprint o w).2.holds k := by
  rw [Outbox.begin]
  split
  · split
    · exact h
    · split_ifs
      · exact h
      · exact h
  · split
    · dsimp only
      split_ifs
      · exact holds_insert h
      · exact h
    · exact holds_insert h

/-- A row is prepared for a key that had none. -/
theorem Outbox.begin_fresh {key fingerprint : String} {o : OutboxOracle} {w : Outbox}
    {stored : Option (List Char)} (h : (Outbox.begin key fingerprint o w).1 = .ok (false, stored)) :
    ¬ w.holds key ∧ (Outbox.begin key fingerprint o w).2.holds key := by
  rw [Outbox.begin] at h ⊢
  cases hrow : w.lookup key with
  | some row =>
    rw [hrow] at h
    cases hfail : o.failure with
    | some f =>
      rw [hfail] at h
      cases h
    | none =>
      rw [hfail] at h
      dsimp only at h
      split_ifs at h
      cases h
  | none =>
    rw [hrow] at h
    cases hfail : o.failure with
    | some f =>
      rw [hfail] at h
      cases h
    | none => exact ⟨AList.lookup_eq_none.mp hrow, (AList.mem_insert w).mpr (.inl rfl)⟩

/-- Rows are kept for good, a row is prepared only for a key that has none, and it is used once. -/
theorem outbox_single : outbox.Single SendsOnce Outbox.holds OutboxStep.prepared OutboxStep.sent where
  kept op o w k h := by
    cases op with
    | begin key fingerprint => exact Outbox.holds_begin h
    | finish key status receipt =>
      cases hfail : o.failure with
      | none => simpa only [outbox, Outbox.finish, hfail] using Outbox.holds_update h
      | some f =>
        simp only [outbox, Outbox.finish, hfail]
        split_ifs
        · exact Outbox.holds_update h
        · exact h
    | send recipient subject body key => exact h
  free op o w k h := by
    cases op with
    | begin key fingerprint =>
      cases hr : (Outbox.begin key fingerprint o w).1 with
      | error e =>
        simp only [outbox, hr, OutboxStep.prepared] at h
        cases h
      | ok r =>
        obtain ⟨_ | _, stored⟩ := r
        · simp only [outbox, hr, OutboxStep.prepared, Option.some.injEq] at h
          exact h ▸ Outbox.begin_fresh hr
        · simp only [outbox, hr, OutboxStep.prepared] at h
          cases h
    | finish key status receipt => cases h
    | send recipient subject body key => cases h
  taken c own s k hg hs := by
    obtain ⟨fingerprint, stored, rfl, rfl⟩ := hg k hs
    refine ⟨⟨_, List.mem_singleton.mpr rfl, rfl⟩, fun s' hs' => ?_⟩
    rw [List.mem_singleton.mp hs']
    rfl

/-- **At most one send a key.** On a table with any rows, under any interleaving of calls of `execute`
by any number of executors, with crashes at any operation and whatever the transport does,
`transport.send` is invoked at most once for each idempotency key. -/
theorem sends_once (py : Platform) (lib : PyLibrary) (w : Outbox)
    (acts : List (Machine.Action ExecutionRequest OutboxOracle)) :
    (sends (deliveries py lib w acts)).Nodup := by
  have hidle : (Machine.Pool.idle ⟨w, []⟩ 0 : Machine.Pool OutboxOp OutboxOp.Res ExecutionRequest
      Outbox OutboxStep PyException ExecutionResult).Ok outbox SendsOnce w :=
    Machine.Pool.ok_idle .nil fun e he => absurd he List.not_mem_nil
  exact outbox_single.uses_nodup
    (Machine.guarded_schedule (execute_sendsOnce py lib) acts _ hidle).trace

end Rpr
