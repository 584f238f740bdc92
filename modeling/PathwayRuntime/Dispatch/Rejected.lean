import Mathlib.Data.List.Induction
import PathwayRuntime.Python.Exception
import PathwayRuntime.Result.Atomic

/-!
# Executions that are rejected

* `Strict`: a computation that only fails with a fingerprint error; `persistResult_error`: the only way
  the ledger rejects a result.
* `Ledger.Settled`: every attempt has an outcome.
* `solo_execute_settled`, `solo_reconcile_settled`: what the methods do to a settled ledger.
* `settled_sequential`: between calls that end, the ledger is settled.
* **`execute_rejected`**: an execution that raises without its executor leaves everything as it was.
-/

set_option autoImplicit false

namespace Rpr

open Resume

/-! ## Why a result is rejected -/

/-- The only errors are fingerprint errors. -/
def Strict {α : Type} (x : Except PyError α) : Prop :=
  ∀ e, x = .error e → ∃ message, e = .attemptFingerprintError message

section Strict

variable {α β : Type}

theorem strict_ok (a : α) : Strict (.ok a) := fun _ h => nomatch h

theorem strict_error (message : String) : Strict (α := α) (.error (.attemptFingerprintError message)) :=
  fun _ h => ⟨message, (Except.error.inj h).symm⟩

theorem Strict.bind {x : Except PyError α} {f : α → Except PyError β} (hx : Strict x)
    (hf : ∀ a, Strict (f a)) : Strict (x >>= f) := by
  intro e he
  rcases except_bind_eq_error.mp he with h | ⟨a, -, h⟩
  · exact hx e h
  · exact hf a e h

theorem strict_addNode (path : String) (b : FingerprintBudget) : Strict (b.addNode path) := by
  unfold FingerprintBudget.addNode
  split_ifs
  · exact strict_error _
  · exact strict_ok _

theorem strict_addText (path : String) (b : FingerprintBudget) (s : PyText) : Strict (b.addText path s) := by
  cases s with
  | lone => exact strict_error _
  | utf8 s =>
    unfold FingerprintBudget.addText
    dsimp only
    split_ifs
    · exact strict_error _
    · exact strict_ok _

theorem strict_checkNesting (path : String) (depth : ℕ) : Strict (checkNesting path depth) := by
  unfold checkNesting
  split_ifs
  · exact strict_error _
  · exact strict_ok _

mutual
/-- A value that is not strict JSON is rejected with a fingerprint error. -/
theorem strict_strictJson (v : PyValue) (path : String) (depth : ℕ) (b : FingerprintBudget) :
    Strict (strictJson path depth v b) := by
  match v with
  | .none | .bool _ | .int _ => exact (strict_addNode path b).bind fun _ => strict_ok _
  | .str s => exact (strict_addNode path b).bind fun b => (strict_addText path b s).bind fun _ => strict_ok _
  | .float x =>
    refine (strict_addNode path b).bind fun b => ?_
    split_ifs
    · exact strict_ok _
    · exact strict_error _
  | .list items | .tuple items =>
    exact (strict_addNode path b).bind fun b => (strict_checkNesting path depth).bind fun _ =>
      (strict_strictItems items path (depth + 1) 0 b).bind fun _ => strict_ok _
  | .dict fields =>
    exact (strict_addNode path b).bind fun b => (strict_checkNesting path depth).bind fun _ =>
      (strict_strictFields fields path (depth + 1) [] b).bind fun _ => strict_ok _
  | .object typeName _ => exact (strict_addNode path b).bind fun _ => strict_error _

theorem strict_strictItems (items : List PyValue) (path : String) (depth i : ℕ) (b : FingerprintBudget) :
    Strict (strictItems path depth i items b) := by
  match items with
  | [] => exact strict_ok _
  | item :: items =>
    exact (strict_strictJson item _ depth b).bind fun r =>
      (strict_strictItems items path depth (i + 1) r.2).bind fun _ => strict_ok _

theorem strict_strictFields (fields : PyDict) (path : String) (depth : ℕ) (result : List (PyText × Json))
    (b : FingerprintBudget) : Strict (strictFields path depth fields result b) := by
  match fields with
  | [] => exact strict_ok _
  | (.other _, _) :: _ => exact strict_error _
  | (.str key, item) :: fields =>
    exact (strict_addText path b key).bind fun b => (strict_strictJson item _ depth b).bind fun r =>
      strict_strictFields fields path depth _ r.2
end

end Strict

/-- **The ledger rejects a result with one kind of error only.** -/
theorem persistResult_error {r : ExecutionResult} {e : PyError} (h : persistResult r = .error e) :
    ∃ message, e = .attemptResultPersistenceError message := by
  unfold persistResult at h
  split at h
  · rename_i e' hstrict
    obtain rfl := Except.error.inj h
    unfold strictResultJson at hstrict
    split at hstrict
    · rename_i e'' hjson
      obtain ⟨message, rfl⟩ := strict_strictJson _ _ _ _ e'' hjson
      exact ⟨message, (Except.error.inj hstrict).symm⟩
    · split at hstrict
      · exact ⟨_, (Except.error.inj hstrict).symm⟩
      · split_ifs at hstrict
        exact ⟨_, (Except.error.inj hstrict).symm⟩
  · cases h

/-! ## Ledgers whose attempts all have an outcome -/

namespace Ledger

/-- Every attempt but perhaps `x` has an outcome. -/
def SettledBut (x : String) (l : Ledger) : Prop :=
  ∀ y row, y ≠ x → l.lookup y = some row → row.outcome.isSome = true

/-- Every attempt has an outcome. -/
def Settled (l : Ledger) : Prop := ∀ y row, l.lookup y = some row → row.outcome.isSome = true

variable {l : Ledger} {x : String}

theorem Settled.but (h : l.Settled) : l.SettledBut x := fun y row _ => h y row

theorem Settled.insert (h : l.Settled) (row : AttemptRow) : SettledBut x (l.insert x row) :=
  fun y row' hy hrow => h y row' ((AList.lookup_insert_ne hy).symm.trans hrow)

/-- The outcome of the last attempt settles the ledger. -/
theorem SettledBut.finish (h : l.SettledBut x) (res : PersistedResult) : Settled (l.finish x res).2 := by
  intro y row hrow
  rw [lookup_finish] at hrow
  split_ifs at hrow with hy
  · obtain ⟨row', -, rfl⟩ := Option.map_eq_some_iff.mp hrow
    rfl
  · exact h y row hy hrow

end Ledger

theorem Untouched.settled {w w' : World} (h : Untouched w w') (hw : w.attempts.Settled) :
    w'.attempts.Settled :=
  fun y row hrow => hw y row ((h.rows y).symm.trans hrow)

section Methods

variable {py : Platform} {order : Option RowOrder} {A : Step → Prop} {G : World → Step → Prop}
  {policy : RedactionPolicy} {w : World} {p actor : String} {request : ExecutionRequest}
  {result : ExecutionResult} {cur : PathwayState} {d : PathwayDefinition}

/-- The end of any fragment, whatever it returns: the ledger is settled. -/
def EndsSettled {α : Type} (_ : Except PyError α) (w : World) : Prop := w.attempts.Settled

theorem solo_persistenceUnknown_settled (hs : w.state p = some cur) (hd : w.getDefinition py p = .ok d)
    (hw : w.attempts.SettledBut request.attemptId) : Solo py order A (fun _ _ => True) EndsSettled
      (persistenceUnknown py policy p request actor) w := by
  unfold persistenceUnknown
  refine solo_tryMarkUnknown fun failure _ => ?_
  have hsettled := hw.finish (unknownResult "result_persistence_rejected:AttemptResultPersistenceError")
  refine solo_record (fun _ _ => trivial) (fun event _ => ?_) fun _ _ => hsettled
  refine solo_transition (w := World.push _ event) hs hd (fun _ event' _ => ?_) fun _ _ => hsettled
  refine solo_pure ?_
  show ((World.push _ event).commit p .writeStatusUnknown event').attempts.Settled
  rw [World.attempts_commit]
  exact hsettled

/-- After the executor, the attempt gets its outcome, however the call ends. -/
theorem solo_settle_settled (hs : w.state p = some cur) (hd : w.getDefinition py p = .ok d)
    (hrow : ∃ row, w.attempts.lookup request.attemptId = some row)
    (hw : w.attempts.SettledBut request.attemptId) : Solo py order A (fun _ _ => True) EndsSettled
      (settle py policy p actor request result) w := by
  unfold settle
  refine solo_tryFinish (fun row res _ _ => ?_) (fun _ _ => ?_) fun h _ => ?_
  · have hsettled := hw.finish res
    refine solo_record (fun _ _ => trivial) (fun event _ => ?_) fun _ _ => hsettled
    refine solo_seq (solo_finishExecutionPathway (w := World.push _ event) hs hd) (fun u w' h => ?_)
      fun e w' h => ?_
    · refine solo_pure ?_
      show w'.attempts.Settled
      rw [h.1.attempts]
      exact hsettled
    · rw [h.1]
      exact hsettled
  · exact solo_persistenceUnknown_settled hs hd hw
  · obtain ⟨row, hlook⟩ := hrow
    rcases h with hnone | ⟨e, he, hother⟩
    · exact absurd (hnone.symm.trans hlook) (by simp)
    · obtain ⟨message, rfl⟩ := persistResult_error he
      exact absurd rfl (hother message)

variable (A w p request) in
/-- The ledger is settled, and a call that raises changed nothing or called the executor. -/
def Rejects {α : Type} (x : Except PyError α) (w' : World) : Prop :=
  w'.attempts.Settled ∧ ∀ e, x = .error e →
    Untouched w w' ∨ ∃ outcome, A (.invokeExecutor p request outcome)

theorem rejects_same {α : Type} (hw : w.attempts.Settled) (x : Except PyError α) :
    Rejects A w p request x w :=
  ⟨hw, fun _ _ => .inl (.refl w)⟩

/-- **`execute` alone, over a settled ledger.** -/
theorem solo_execute_settled (hw : w.attempts.Settled) :
    Solo py order A (fun _ _ => True) (Rejects A w p request) (execute py policy p request actor) w := by
  unfold execute
  refine solo_seq solo_admitExecution (fun u w₀ h => ?_) fun e w' h => ?_
  swap
  · rw [h.1]
    exact rejects_same hw _
  obtain ⟨rfl, d, s, hadm⟩ := h
  refine solo_begin (fun ord fp rec _ _ hbegin => ?_) (fun ord fp rec _ _ hbegin _ => ?_)
    fun e _ => rejects_same hw _
  · -- A fresh row is discarded again, unless the executor is called.
    dsimp only
    rw [if_pos (by decide), dispatch_eq]
    refine solo_seq (solo_enterRunning (w := w₀.withAttempts _) hadm.state hadm.definition)
      (fun u w₁ h => ?_) fun e w' h => ?_
    · obtain ⟨hs, hd, hattempts⟩ : w₁.state p = some .running ∧ w₁.getDefinition py p = .ok d ∧
          w₁.attempts = w₀.attempts.insert request.attemptId (Ledger.startedRow p request fp) := by
        rcases h with ⟨rfl, rfl⟩ | ⟨rfl, event, he, rfl⟩
        · exact ⟨hadm.state, hadm.definition, rfl⟩
        · refine ⟨?_, (World.getDefinition_commit _ _ _ _ _).trans hadm.definition,
            World.attempts_commit _ _ _ _⟩
          rw [World.state_commit, if_pos rfl, World.state_withAttempts, hadm.state]
          rfl
      refine solo_invokeExecutor fun outcome ha => ⟨trivial, ?_⟩
      refine Machine.Ensures.mono (solo_settle_settled hs hd ?_ ?_) fun x w' hx =>
        ⟨hx, fun _ _ => .inr ⟨outcome, ha⟩⟩
      · rw [hattempts]
        exact ⟨_, AList.lookup_insert _⟩
      · rw [hattempts]
        exact hw.insert _
    · rw [h.2]
      have hback := @untouched_discarded w₀ _ (Ledger.startedRow p request fp)
        (Ledger.matching_eq_none (Ledger.begin_fresh hbegin).1) rfl
      exact ⟨hback.settled hw, fun _ _ => .inl hback⟩
  · -- A row that is found has an outcome.
    dsimp only
    rw [if_neg (by decide)]
    have hsome := hw _ _ (Ledger.matching_eq_some (Ledger.begin_replayed hbegin).1)
    cases hout : rec.outcome with
    | none => rw [hout] at hsome; cases hsome
    | some stored =>
      refine solo_ofExcept (fun r _ => ?_) fun e _ => rejects_same hw _
      refine solo_seq (solo_finishExecutionPathway hadm.state hadm.definition) (fun u w' h => ?_)
        fun e w' h => ?_
      · refine solo_pure ⟨?_, fun _ h => nomatch h⟩
        rw [h.1.attempts]
        exact hw
      · rw [h.1]
        exact rejects_same hw _

theorem solo_persistReconciliationResult_settled (hw : w.attempts.Settled) :
    Solo py order A (fun _ _ => True) (fun _ w' => w'.attempts.Settled ∧ w'.state p = w.state p)
      (persistReconciliationResult py policy p request actor result) w := by
  unfold persistReconciliationResult
  refine solo_tryFinish (fun row res _ _ => ?_) (fun _ _ => ?_) fun _ _ => ⟨hw, rfl⟩
  · exact solo_pure ⟨hw.but.finish res, rfl⟩
  · rw [if_neg (by decide)]
    refine solo_tryMarkUnknown fun failure _ => ?_
    have hsettled := hw.but.finish (x := request.attemptId) (unknownResult reconciliationRejected)
    exact solo_record (fun _ _ => trivial) (fun event _ => solo_pure ⟨hsettled, rfl⟩)
      fun _ _ => ⟨hsettled, rfl⟩

/-- `reconcile` keeps a ledger settled. -/
theorem solo_reconcile_settled (hw : w.attempts.Settled) : Solo py order A (fun _ _ => True) EndsSettled
    (reconcile py policy p request actor) w := by
  unfold reconcile
  refine solo_seq solo_admitReconciliation (fun u w₀ h => ?_) fun e w' h => ?_
  swap
  · rw [h.1]
    exact hw
  obtain ⟨rfl, s, hadm⟩ := h
  have hfinish : ∀ {w₁ : World} {r : ExecutionResult} {replayed : Bool}, w₁.attempts.Settled →
      w₁.state p = some s → Solo py order A (fun _ _ => True) EndsSettled (do
        finishReconciliationPathway py policy p request actor r replayed
        return r) w₁ := by
    intro w₁ r replayed hw₁ hs
    refine solo_seq (solo_finishReconciliationPathway hs) (fun u w' h => solo_pure ?_) fun e w' h => ?_
    · show w'.attempts.Settled
      rw [h.1.attempts]
      exact hw₁
    · rw [h.1]
      exact hw₁
  refine solo_begin (fun ord fp rec _ _ hbegin => ?_) (fun ord fp rec _ _ _ _ => ?_) fun e _ => hw
  · dsimp only
    rw [if_pos (by decide)]
    refine solo_discardStarted (solo_raise ?_)
    exact (@untouched_discarded _ _ (Ledger.startedRow p request fp)
      (Ledger.matching_eq_none (Ledger.begin_fresh hbegin).1) rfl).settled hw
  · dsimp only
    rw [if_neg (by decide)]
    refine solo_ofExcept (fun final _ => ?_) fun e _ => hw
    cases final with
    | some persisted => exact hfinish hw hadm.state
    | none =>
      refine solo_observe fun x _ => ?_
      cases x with
      | raised typeName => exact solo_raise hw
      | returned observed =>
        dsimp only
        split_ifs with hunresolved
        · exact solo_record (fun _ _ => trivial) (fun _ _ => solo_pure hw) fun _ _ => hw
        · refine solo_seq (solo_persistReconciliationResult_settled hw) (fun stored w₁ h => ?_)
            fun e w' h => h.1
          cases stored with
          | true => exact hfinish h.1 (h.2.trans hadm.state)
          | false => exact solo_pure h.1

end Methods

/-! ## Between calls -/

section Calls

variable {py : Platform} {order : Option RowOrder} {calls : List (Call × List Oracle)} {c : Call}
  {os : List Oracle}

/-- Only `execute` and `reconcile` begin an attempt. -/
theorem Begins.method {own : Own} {p : String} {request : ExecutionRequest} (h : Begins c own p request) :
    ∃ actor, c.method = .execute p request actor ∨ c.method = .reconcile p request actor := by
  cases h with
  | execute hc | again hc => exact ⟨_, .inl hc⟩
  | reconcile hc => exact ⟨_, .inr hc⟩

/-- **A call that ends leaves a settled ledger settled.** -/
theorem settled_call (hw : (sequential py order calls).world.attempts.Settled)
    (hended : (lastCall py order calls c os).1.ended = true) :
    (sequential py order (calls ++ [(c, os)])).world.attempts.Settled := by
  have hends : ∀ {α : Type} {f : α → CallResult} {q : Db α}, c.body py = (do return f (← q)) →
      Solo py order (fun _ => True) (fun _ _ => True) EndsSettled q (sequential py order calls).world →
      (sequential py order (calls ++ [(c, os)])).world.attempts.Settled := by
    intro α f q hbody h
    have hholds : Outcome.Holds (Wraps f EndsSettled) (lastCall py order calls c os).2.world
        (lastCall py order calls c os).1 := (solo_last hbody h fun _ _ => trivial).2
    rw [← lastCall_hist]
    generalize (lastCall py order calls c os).1 = out at hholds hended
    cases out with
    | returned r =>
      obtain ⟨a, -, hsettled⟩ := hholds
      exact hsettled
    | raised e => exact hholds
    | crashed => cases hended
  by_cases hbegin : ∃ p request actor, c.method = .execute p request actor ∨
      c.method = .reconcile p request actor
  · obtain ⟨p, request, actor, hc | hc⟩ := hbegin
    · refine hends (f := .executed) (q := execute py c.policy p request actor) (by rw [Call.body, hc]) ?_
      exact Machine.Ensures.mono (solo_execute_settled hw) fun x w' hx => hx.1
    · exact hends (f := .executed) (q := reconcile py c.policy p request actor) (by rw [Call.body, hc])
        (solo_reconcile_settled hw)
  · -- No other method inserts a row.
    refine Running.induct (motive := fun w => w.attempts.Settled) hw fun tr w s _ hsettled hj ha => ?_
    intro x row hrow
    cases row_cases hj ha x with
    | begun hbegins =>
      obtain ⟨actor, hc⟩ := hbegins.method
      exact absurd ⟨_, _, actor, hc⟩ hbegin
    | finished _ _ hnew =>
      obtain rfl := Option.some.inj (hnew.symm.trans hrow)
      rfl
    | discarded _ _ _ hnew => exact absurd (hnew.symm.trans hrow) (by simp)
    | untouched hsame => exact hsettled x row (hsame.symm.trans hrow)

theorem completed_append : completed py order (calls ++ [(c, os)]) =
    (completed py order calls && (lastCall py order calls c os).1.ended) := by
  rw [completed, Machine.completes_append, Nat.zero_add]
  rfl

/-- **Between calls that end, every attempt has an outcome.** -/
theorem settled_sequential (h : completed py order calls = true) :
    (sequential py order calls).world.attempts.Settled := by
  induction calls using List.reverseRecOn with
  | nil => exact fun x row hrow => nomatch hrow
  | append_singleton calls call ih =>
    rw [completed_append, Bool.and_eq_true] at h
    exact settled_call (ih h.1) h.2

end Calls

/-- **An execution that raises without its executor leaves everything as it was**, after calls that all
ended: no row, no state and no event has changed. -/
theorem execute_rejected (py : Platform) (order : Option RowOrder) (calls : List (Call × List Oracle))
    (c : Call) (os : List Oracle) (p : String) (request : ExecutionRequest) (actor : String)
    (hcalls : completed py order calls = true) (hc : c.method = .execute p request actor)
    (hraised : (lastCall py order calls c os).1.raises = true)
    (hsilent : ∀ s ∈ lastSteps py order calls c os, s.dispatch = none) :
    Untouched (sequential py order calls).world (lastCall py order calls c os).2.world := by
  obtain ⟨e, he⟩ := Outcome.raises_eq_true hraised
  have hsolo : Solo py order (fun s => s.dispatch = none) (fun _ _ => True) _
      (execute py c.policy p request actor) (sequential py order calls).world :=
    solo_execute_settled (settled_sequential hcalls)
  have hholds := (solo_last (f := .executed) (by rw [Call.body, hc]) hsolo hsilent).2
  rw [he] at hholds
  rcases hholds.2 e rfl with hsame | ⟨outcome, hinvoked⟩
  · exact hsame
  · cases hinvoked

theorem execute_rejected_awaiting :
    Untouched (sequential .sample none awaitingCalls).world
      (lastCall .sample none awaitingCalls (⟨.default, .execute "p" requestA "executor"⟩)
        (List.replicate 40 {})).2.world := by
  have hrun : completed .sample none awaitingCalls = true ∧
      (lastCall .sample none awaitingCalls (⟨.default, .execute "p" requestA "executor"⟩)
        (List.replicate 40 {})).1.raises = true ∧
      (lastSteps .sample none awaitingCalls (⟨.default, .execute "p" requestA "executor"⟩)
        (List.replicate 40 {})).all (fun s => s.dispatch.isNone) = true := by
    decide +kernel
  refine execute_rejected .sample none awaitingCalls _ _ "p" requestA "executor" hrun.1 rfl hrun.2.1
    fun s hs => ?_
  exact Option.isNone_iff_eq_none.mp (List.all_eq_true.mp hrun.2.2 s hs)

end Rpr
