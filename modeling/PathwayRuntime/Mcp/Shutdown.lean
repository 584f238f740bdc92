import PathwayRuntime.Model.Lifecycle
import PathwayRuntime.Python.Recorded

/-!
# A shutdown leaks no process

* `McpProcessHandle.Escalates`: no method fails before the process is seen to exit or is killed, timeouts apart.
* `ShutdownOutcome.Safe`: an exit was reported or the process was killed, and the pipes were closed once.
* **`shutdown_safe_iff`**: a shutdown is safe exactly when it is the first one to end and its handle escalates.
-/

set_option autoImplicit false

namespace Rpr

/-! ## What the methods report -/

/-- A wait reported an exit code. -/
def HandleCall.reportsExit : HandleCall → Bool
  | .wait _ (.ok (.int _)) => true
  | _ => false

def HandleCall.isKill : HandleCall → Bool
  | .kill _ => true
  | _ => false

def HandleCall.isClosePipes : HandleCall → Bool
  | .closePipes _ => true
  | _ => false

/-- The process was seen to exit, or it was killed. -/
def Ended (calls : List HandleCall) : Prop := ∃ c ∈ calls, c.reportsExit = true ∨ c.isKill = true

/-- An exit code was reported. -/
def Exits (x : Except PyException PyValue) : Prop := ∃ exitCode, x = .ok (.int exitCode)

/-- The process did not exit in time. -/
def TimesOut (x : Except PyException PyValue) : Prop := ∃ e, x = .error e ∧ e.isA "TimeoutError" = true

/-- **No method fails before the process is seen to exit or is killed**, timeouts apart. -/
def McpProcessHandle.Escalates (handle : McpProcessHandle) : Prop :=
  handle.closeStdin = .ok () ∧ (Exits handle.gracefulWait ∨ TimesOut handle.gracefulWait ∧
    handle.terminate = .ok () ∧ (Exits handle.terminateWait ∨ TimesOut handle.terminateWait))

theorem does_callHandle_ok (label : String) (record : Except PyException Unit → HandleCall) :
    Does (callHandle label record (.ok ())) (.ok ()) [record (.ok ())] :=
  (does_pure ()).recorded

theorem does_callHandle_error (label : String) (record : Except PyException Unit → HandleCall) (e : PyException) :
    ∃ e', Does (callHandle label record (.error e)) (.error e') [record (.error e)] := by
  by_cases h : e.isA "Exception" = true
  · exact ⟨_, Does.recorded (by simpa only [h, if_true] using does_throw _)⟩
  · refine ⟨e, Does.recorded ?_⟩
    show Does (if e.isA "Exception" = true then _ else throw e) _ _
    rw [if_neg h]
    exact does_throw e

/-- What a wait comes to: an exit code, a timeout, or another error. -/
theorem waitHandle_cases (timeoutSeconds : PyFloat) (x : Except PyException PyValue) :
    (∃ exitCode, x = .ok (.int exitCode) ∧ Does (waitHandle timeoutSeconds x) (.ok exitCode) [.wait timeoutSeconds x]) ∨
    (∃ e, x = .error e ∧ e.isA "TimeoutError" = true ∧
      Does (waitHandle timeoutSeconds x) (.error e) [.wait timeoutSeconds x]) ∨
    ¬ Exits x ∧ ¬ TimesOut x ∧ ∃ e, e.isA "TimeoutError" = false ∧
      Does (waitHandle timeoutSeconds x) (.error e) [.wait timeoutSeconds x] := by
  cases x with
  | error e =>
    by_cases htimeout : e.isA "TimeoutError" = true
    · refine .inr (.inl ⟨e, rfl, htimeout, Does.recorded ?_⟩)
      simpa only [htimeout, if_true] using does_throw e
    · refine .inr (.inr ⟨fun ⟨_, h⟩ => (nomatch h), fun ⟨e', h, h'⟩ => htimeout (Except.error.inj h ▸ h'), ?_⟩)
      have hwait : ∀ {e' : PyException}, Does (if e.isA "Exception" = true then
          throw (mcpProcessLifecycleError (PyText.utf8 "MCP process wait failed: " ++ e.describe)) else throw e :
          Handled ℤ) (.error e') [] →
            Does (waitHandle timeoutSeconds (.error e)) (.error e') [.wait timeoutSeconds (.error e)] := by
        intro e' h
        refine Does.recorded ?_
        show Does (if e.isA "TimeoutError" = true then throw e else _) _ _
        rwa [if_neg htimeout]
      by_cases h : e.isA "Exception" = true
      · exact ⟨_, rfl, hwait (by rw [if_pos h]; exact does_throw _)⟩
      · exact ⟨e, by simpa using htimeout, hwait (by rw [if_neg h]; exact does_throw e)⟩
  | ok v =>
    cases v with
    | int exitCode => exact .inl ⟨exitCode, rfl, (does_pure exitCode).recorded⟩
    | none | bool _ | float _ | str _ | list _ | tuple _ | dict _ | object _ _ =>
      exact .inr (.inr ⟨fun ⟨_, h⟩ => (nomatch h), fun ⟨_, h, _⟩ => (nomatch h), _, rfl, (does_throw _).recorded⟩)

/-! ## The attempt -/

/-- What a part of the attempt does: exactly when this holds, the process is seen to exit or is killed. -/
structure Attempted (escalates : Prop) (p : Handled McpProcessExit) (x : Except PyException McpProcessExit)
    (new : List HandleCall) : Prop where
  does : Does p x new
  ended : Ended new ↔ escalates
  returned : ∀ r, x = .ok r → ∃ c ∈ new, c.reportsExit = true
  pipes : ∀ c ∈ new, c.isClosePipes = false

theorem ended_cons {c : HandleCall} {calls : List HandleCall} (hexit : c.reportsExit = false)
    (hkill : c.isKill = false) : Ended (c :: calls) ↔ Ended calls := by
  simp [Ended, hexit, hkill]

/-- A method that must succeed, and then the rest. -/
theorem Attempted.call {escalates : Prop} {next : Handled McpProcessExit} {x : Except PyException McpProcessExit}
    {new : List HandleCall} (h : Attempted escalates next x new) (label : String)
    (record : Except PyException Unit → HandleCall) (y : Except PyException Unit)
    (hexit : ∀ y, (record y).reportsExit = false) (hkill : ∀ y, (record y).isKill = false)
    (hpipes : ∀ y, (record y).isClosePipes = false) :
    ∃ x new, Attempted (y = .ok () ∧ escalates) (do callHandle label record y; next) x new := by
  cases y with
  | ok u =>
    refine ⟨x, record (.ok ()) :: new, (does_callHandle_ok label record).bind h.does, ?_, ?_, ?_⟩
    · rw [ended_cons (hexit _) (hkill _), h.ended]
      exact (and_iff_right rfl).symm
    · intro r hr
      obtain ⟨c, hc, hreports⟩ := h.returned r hr
      exact ⟨c, List.mem_cons_of_mem _ hc, hreports⟩
    · exact List.forall_mem_cons.mpr ⟨hpipes _, h.pipes⟩
  | error e =>
    obtain ⟨e', hcall⟩ := does_callHandle_error label record e
    refine ⟨.error e', [record (.error e)], hcall.bind_error, ?_, fun r hr => (nomatch hr), ?_⟩
    · rw [ended_cons (hexit _) (hkill _)]
      exact iff_of_false (fun ⟨_, hc, _⟩ => List.not_mem_nil hc) fun hy => nomatch hy.1
    · exact List.forall_mem_cons.mpr ⟨hpipes _, fun _ hc => (List.not_mem_nil hc).elim⟩

/-- A wait, and the rest when the process does not exit in time. -/
theorem Attempted.wait {escalates : Prop} {next : Handled McpProcessExit} {x : Except PyException McpProcessExit}
    {new : List HandleCall} (h : Attempted escalates next x new) (timeoutSeconds : PyFloat)
    (y : Except PyException PyValue) (exit : ℤ → McpProcessExit) :
    ∃ x new, Attempted (Exits y ∨ TimesOut y ∧ escalates) (tryCatch (do
        let exitCode ← waitHandle timeoutSeconds y
        return exit exitCode)
      fun e => if e.isA "TimeoutError" then next else throw e) x new := by
  rcases waitHandle_cases timeoutSeconds y with ⟨exitCode, rfl, hwait⟩ | ⟨e, rfl, htimeout, hwait⟩ |
    ⟨hexits, htimesOut, e, htimeout, hwait⟩
  · refine ⟨.ok (exit exitCode), _, (hwait.bind (does_pure (exit exitCode))).tryCatch, ?_, ?_, ?_⟩
    · exact iff_of_true ⟨_, List.mem_cons_self, .inl rfl⟩ (.inl ⟨exitCode, rfl⟩)
    · exact fun r _ => ⟨_, List.mem_cons_self, rfl⟩
    · exact List.forall_mem_cons.mpr ⟨rfl, fun _ hc => (List.not_mem_nil hc).elim⟩
  · refine ⟨x, _, hwait.bind_error.tryCatch_error (by rw [if_pos htimeout]; exact h.does), ?_, ?_, ?_⟩
    · rw [List.singleton_append, ended_cons rfl rfl, h.ended]
      refine ⟨fun hescalates => .inr ⟨⟨e, rfl, htimeout⟩, hescalates⟩, ?_⟩
      rintro (⟨_, hexits⟩ | ⟨-, hescalates⟩)
      · cases hexits
      · exact hescalates
    · intro r hr
      obtain ⟨c, hc, hreports⟩ := h.returned r hr
      exact ⟨c, List.mem_cons_of_mem _ hc, hreports⟩
    · exact List.forall_mem_cons.mpr ⟨rfl, h.pipes⟩
  · refine ⟨.error e, _, hwait.bind_error.tryCatch_error (by rw [htimeout]; exact does_throw e), ?_,
      fun r hr => (nomatch hr), ?_⟩
    · have hreports : (HandleCall.wait timeoutSeconds y).reportsExit = false := by
        unfold HandleCall.reportsExit
        split
        · rename_i exitCode heq
          exact absurd ⟨exitCode, (HandleCall.wait.inj heq).2⟩ hexits
        · rfl
      rw [List.append_nil, ended_cons hreports rfl]
      exact iff_of_false (fun ⟨_, hc, _⟩ => List.not_mem_nil hc) fun hy => hy.elim hexits fun hy => htimesOut hy.1
    · exact List.forall_mem_cons.mpr ⟨rfl, fun _ hc => (List.not_mem_nil hc).elim⟩

/-- The process is killed before the rest. -/
theorem Attempted.kill {escalates : Prop} {next : Handled McpProcessExit} {x : Except PyException McpProcessExit}
    {new : List HandleCall} (h : Attempted escalates next x new) (y : Except PyException Unit) :
    ∃ x new, Attempted True (do callHandle "kill process" .kill y; next) x new := by
  cases y with
  | ok u =>
    refine ⟨x, .kill (.ok ()) :: new, (does_callHandle_ok "kill process" .kill).bind h.does,
      iff_true_intro ⟨_, List.mem_cons_self, .inr rfl⟩, fun r hr => ?_, List.forall_mem_cons.mpr ⟨rfl, h.pipes⟩⟩
    obtain ⟨c, hc, hreports⟩ := h.returned r hr
    exact ⟨c, List.mem_cons_of_mem _ hc, hreports⟩
  | error e =>
    obtain ⟨e', hcall⟩ := does_callHandle_error "kill process" .kill e
    exact ⟨.error e', [.kill (.error e)], hcall.bind_error, iff_true_intro ⟨_, List.mem_cons_self, .inr rfl⟩,
      fun r hr => (nomatch hr), List.forall_mem_cons.mpr ⟨rfl, fun _ hc => (List.not_mem_nil hc).elim⟩⟩

section Attempt

variable (handle : McpProcessHandle) (s : McpSubprocessLifecycle)

theorem killed_attempted : ∃ x new, Attempted True (s.killed handle) x new := by
  have hthrow : Attempted False (throw (mcpProcessLifecycleError "MCP process did not exit after kill")) _ [] :=
    ⟨does_throw _, iff_of_false (fun ⟨_, hc, _⟩ => List.not_mem_nil hc) id, fun r hr => (nomatch hr),
      fun _ hc => (List.not_mem_nil hc).elim⟩
  obtain ⟨x, new, hwait⟩ := hthrow.wait s.killTimeoutSeconds handle.killWait fun exitCode =>
    ⟨exitCode, false, true, true⟩
  exact hwait.kill handle.kill

theorem terminated_attempted : ∃ x new, Attempted (handle.terminate = .ok () ∧
    (Exits handle.terminateWait ∨ TimesOut handle.terminateWait)) (s.terminated handle) x new := by
  obtain ⟨x, new, hkilled⟩ := killed_attempted handle s
  obtain ⟨x, new, hwait⟩ := hkilled.wait s.terminateTimeoutSeconds handle.terminateWait fun exitCode =>
    ⟨exitCode, false, true, false⟩
  rw [and_true] at hwait
  exact hwait.call "terminate process" .terminate handle.terminate (fun _ => rfl) (fun _ => rfl) fun _ => rfl

/-- **What the attempt does**: the process is seen to exit or is killed exactly when the handle escalates. -/
theorem attempt_attempted : ∃ x new, Attempted handle.Escalates (s.attempt handle) x new := by
  obtain ⟨x, new, hterminated⟩ := terminated_attempted handle s
  obtain ⟨x, new, hwait⟩ := hterminated.wait s.gracefulTimeoutSeconds handle.gracefulWait fun exitCode =>
    ⟨exitCode, true, false, false⟩
  exact hwait.call "close stdin" .closeStdin handle.closeStdin (fun _ => rfl) (fun _ => rfl) fun _ => rfl

end Attempt

/-! ## The shutdown -/

/-- A shutdown leaks no process: an exit was reported or the process was killed, the pipes were closed once, and a
result is returned only after both. -/
structure ShutdownOutcome.Safe (o : ShutdownOutcome) : Prop where
  ended : Ended o.calls
  closed : o.calls.countP HandleCall.isClosePipes = 1
  returned : ∀ r, o.returned = .ok r → (∃ c ∈ o.calls, c.reportsExit = true) ∧ .closePipes (.ok ()) ∈ o.calls

section Shutdown

variable {handle : McpProcessHandle} {s : McpSubprocessLifecycle}

/-- A shutdown that is no repetition: the attempt, and then the pipes. -/
theorem shutdown_calls (hresult : s.result = none) (hclosing : s.closing = false) :
    ∃ x new, Attempted handle.Escalates (s.attempt handle) x new ∧
      (s.shutdown handle).calls = new ++ [.closePipes handle.closePipes] ∧
      ∀ r, (s.shutdown handle).returned = .ok r → x = .ok r ∧ handle.closePipes = .ok () := by
  obtain ⟨x, new, h⟩ := attempt_attempted handle s
  refine ⟨x, new, h, ?_⟩
  obtain ⟨y, hpipes, hy⟩ : ∃ y, Does (callHandle "close process pipes" .closePipes handle.closePipes) y
      [.closePipes handle.closePipes] ∧ (y = .ok () → handle.closePipes = .ok ()) := by
    cases handle.closePipes with
    | ok u => exact ⟨_, does_callHandle_ok _ _, fun _ => rfl⟩
    | error e =>
      obtain ⟨e', hcall⟩ := does_callHandle_error "close process pipes" .closePipes e
      exact ⟨_, hcall, fun h => (nomatch h)⟩
  simp only [McpSubprocessLifecycle.shutdown, hresult, hclosing, Bool.false_eq_true, if_false, h.does [],
    List.nil_append, hpipes new]
  cases x with
  | error e => exact ⟨rfl, fun r hr => (nomatch hr)⟩
  | ok result =>
    cases y with
    | error e => exact ⟨rfl, fun r hr => (nomatch hr)⟩
    | ok u => exact ⟨rfl, fun r hr => ⟨hr, hy rfl⟩⟩

/-- **A shutdown leaks no process exactly when it is no repetition and its handle escalates**: `close_stdin` succeeds,
and until a wait reports an exit code every wait runs into its timeout and `terminate` succeeds. -/
theorem shutdown_safe_iff (handle : McpProcessHandle) (s : McpSubprocessLifecycle) :
    (s.shutdown handle).Safe ↔ s.result = none ∧ s.closing = false ∧ handle.Escalates := by
  by_cases hfirst : s.result = none ∧ s.closing = false
  · obtain ⟨hresult, hclosing⟩ := hfirst
    obtain ⟨x, new, h, hcalls, hreturned⟩ := @shutdown_calls handle s hresult hclosing
    have hended : Ended (new ++ [.closePipes handle.closePipes]) ↔ Ended new := by
      simp [Ended, HandleCall.reportsExit, HandleCall.isKill, or_and_right, exists_or]
    constructor
    · intro hsafe
      exact ⟨hresult, hclosing, h.ended.mp (hended.mp (hcalls ▸ hsafe.ended))⟩
    · rintro ⟨-, -, hescalates⟩
      refine ⟨hcalls ▸ hended.mpr (h.ended.mpr hescalates), ?_, fun r hr => ?_⟩
      · rw [hcalls, List.countP_append, List.countP_eq_zero.mpr fun c hc => by simp [h.pipes c hc]]
        rfl
      · obtain ⟨hx, hpipes⟩ := hreturned r hr
        obtain ⟨c, hc, hreports⟩ := h.returned r hx
        rw [hcalls, hpipes]
        exact ⟨⟨c, List.mem_append_left _ hc, hreports⟩, List.mem_append_right _ List.mem_cons_self⟩
  · -- A repetition calls nothing.
    have hcalls : (s.shutdown handle).calls = [] := by
      unfold McpSubprocessLifecycle.shutdown
      cases hresult : s.result with
      | some result => rfl
      | none =>
        have hclosing : s.closing = true := by simpa using fun hclosing => hfirst ⟨hresult, hclosing⟩
        simp only [hclosing, if_true]
    refine iff_of_false (fun hsafe => ?_) fun h => hfirst ⟨h.1, h.2.1⟩
    have hclosed := hsafe.closed
    rw [hcalls] at hclosed
    cases hclosed

end Shutdown

/-! ## A process that is neither seen to exit nor killed -/

/-- A lifecycle with the default timeouts, in seconds. -/
def McpSubprocessLifecycle.sample : McpSubprocessLifecycle where
  gracefulTimeoutSeconds := .finite ⟨false, 5, 0, .inl (by decide)⟩
  terminateTimeoutSeconds := .finite ⟨false, 2, 0, .inl (by decide)⟩
  killTimeoutSeconds := .finite ⟨false, 2, 0, .inl (by decide)⟩
  result := none
  closing := false

/-- The standard input of the process is broken: `close_stdin` raises, and nothing else would. -/
def brokenStdin : McpProcessHandle where
  closeStdin := .error (.ofClass "BrokenPipeError" ["ConnectionError", "OSError"] "[Errno 32] Broken pipe")
  gracefulWait := .error (.ofClass "TimeoutError" ["OSError"] "")
  terminate := .ok ()
  terminateWait := .ok (.int 143)
  kill := .ok ()
  killWait := .ok (.int (-9))
  closePipes := .ok ()

/-- **A process is left running**: `shutdown` raises after it has closed the pipes. -/
theorem brokenStdin_leaks : let o := McpSubprocessLifecycle.sample.shutdown brokenStdin
    o.returned = .error (mcpProcessLifecycleError
      "failed to close stdin: BrokenPipeError: [Errno 32] Broken pipe") ∧
    o.calls = [.closeStdin brokenStdin.closeStdin, .closePipes (.ok ())] ∧ ¬ o.Safe := by
  have hcalls : (McpSubprocessLifecycle.sample.shutdown brokenStdin).calls =
      [.closeStdin brokenStdin.closeStdin, .closePipes (.ok ())] := rfl
  refine ⟨rfl, hcalls, fun hsafe => ?_⟩
  obtain ⟨c, hc, hended⟩ := hsafe.ended
  rw [hcalls] at hc
  simp only [List.mem_cons, List.not_mem_nil, or_false] at hc
  rcases hc with rfl | rfl <;> exact hended.elim (fun h => (nomatch h)) fun h => (nomatch h)

end Rpr
