import PathwayRuntime.Trace.Binding

/-!
# At most one invocation an attempt

Calls are made one after another, and may crash at any operation.

* `DispatchInv`: every dispatched attempt has a row under its pathway, its pathway has been running,
  and no attempt was dispatched twice.
* **`attempts_dispatched_once`**: the executor is invoked at most once for each attempt id, and, when
  the redaction policies keep the binding keys, only for the attempt the log is bound to.
* `dispatched_unreadable`: a policy that hides the attempt ids breaks the second half.
-/

set_option autoImplicit false

namespace Rpr

open Resume

section Invariant

variable {py : Platform} {order : Option RowOrder} {t : ℕ} {c : Call} {s : Step} {tr : List Record}
  {w w₀ : World} {p x : String}

/-- An invocation is made on a running pathway, for the attempt its log is bound to. -/
theorem dispatch_running (h : SerialReach py order t tr w) (hj : Justified py c (own t tr) s)
    (hs : s.dispatch = some (p, x)) : w.state p = some .running ∧
      (c.policy.KeepsStarts py → activeAttempt (w.log p) = .ok x) := by
  obtain ⟨request, r, rfl, rfl⟩ := Step.dispatch_eq_some hs
  obtain ⟨actor, hc, hcleared⟩ := hj
  obtain ⟨newer, older, w₀, -, -, halone, -⟩ := h.start hcleared.silent
  exact (hcleared.alone halone).2

/-- A pathway with an invocation has been running. -/
theorem dispatched_ran (h : Reach py order tr w) (hs : Serial tr) (hd : (p, x) ∈ dispatches tr) :
    ∃ st ∈ afterRunning, w.state p = some st := by
  revert hd
  refine serial_induct (motive := fun tr w => (p, x) ∈ dispatches tr →
    ∃ st ∈ afterRunning, w.state p = some st) (fun hd => absurd hd List.not_mem_nil) ?_ h hs
  intro t c s tr w h ih hj ha hd
  rw [dispatches_cons] at hd
  rcases List.mem_append.mp hd with hd | hd
  · rw [Option.mem_toList] at hd
    exact ran_kept hj ha ⟨.running, by decide, (dispatch_running h hj hd).1⟩
  · exact ran_kept hj ha (ih [] tr w rfl h.reach hd)

/-- Every dispatched attempt has a row under its pathway, and none was dispatched twice. -/
structure DispatchInv (tr : List Record) (w : World) : Prop where
  row : ∀ p x, (p, x) ∈ dispatches tr →
    ∃ row, w.attempts.lookup x = some row ∧ row.pathwayId = p
  once : ((dispatches tr).map Prod.snd).Nodup

/-- An attempt that stood as a call began it was never dispatched. -/
theorem Undispatched.notMem (h : Undispatched (some .attemptIdFirst) w₀ p x)
    (hinv : DispatchInv tr w₀) (hreach : Reach py order tr w₀) (hs : Serial tr) :
    x ∉ (dispatches tr).map Prod.snd := by
  intro hx
  obtain ⟨⟨q, _⟩, hd, rfl⟩ := List.mem_map.mp hx
  obtain ⟨row', hrow', hq⟩ := hinv.row q _ hd
  rcases h with hnone | ⟨row, hrow, -, happroved, hp⟩
  · exact absurd (hnone.symm.trans hrow') (by simp)
  · obtain rfl := Option.some.inj (hrow'.symm.trans hrow)
    obtain ⟨st, hst, hran⟩ := dispatched_ran hreach hs hd
    rw [← hq, hp rfl, happroved] at hran
    exact absurd hst (Option.some.inj hran ▸ by decide)

end Invariant

section Once

variable {py : Platform} {t : ℕ} {c : Call} {s : Step} {tr : List Record} {w : World} {p x : String}

/-- A call that has invoked nobody yet and has begun `x` found it undispatched. -/
theorem begun_undispatched (h : SerialReach py (some .attemptIdFirst) t tr w)
    (ih : Before py (some .attemptIdFirst) DispatchInv tr)
    (hsilent : ∀ s ∈ own t tr, s.dispatch = none)
    (hbegun : ∀ w₀, Alone py (some .attemptIdFirst) w₀ (own t tr) w →
      Undispatched (some .attemptIdFirst) w₀ p x) : x ∉ (dispatches tr).map Prod.snd := by
  obtain ⟨newer, older, w₀, rfl, hold, halone, hsame⟩ := h.start hsilent
  rw [hsame]
  exact (hbegun w₀ halone).notMem (ih newer older w₀ rfl hold) hold (List.pairwise_append.mp h.serial).2.1

/-- A started row that is discarded was never dispatched. -/
theorem Discards.undispatched (h : SerialReach py (some .attemptIdFirst) t tr w)
    (ih : Before py (some .attemptIdFirst) DispatchInv tr) (hj : Discards c (own t tr) x)
    {row : AttemptRow} (hrow : w.attempts.lookup x = some row) (hout : row.outcome = none) :
    x ∉ (dispatches tr).map Prod.snd := by
  generalize hown : own t tr = o at hj
  cases hj with
  | @restart p actor fp request rec base hc hadm hrec ho =>
    -- The row that was found is the one that is discarded, and its pathway is `APPROVED`.
    subst ho
    have hquiet : ∀ s ∈ Step.getState p (.ok .approved) :: .begin p request fp (.ok (true, rec)) :: base,
        s.quiet := by simpa [Step.quiet] using hadm.quiet
    refine begun_undispatched (p := p) h ih (hown ▸ fun s hs => Step.dispatch_quiet (hquiet s hs))
      fun w₀ ha => ?_
    rw [hown] at ha
    obtain rfl := ha.quiet hquiet
    have hanswers := ha.answers hquiet
    have happroved : Step.Answers py (some .attemptIdFirst) (.getState p (.ok .approved)) w :=
      hanswers _ List.mem_cons_self
    obtain ⟨hfound, hp, hfirst⟩ := replayed_row (hanswers (.begin p request fp (.ok (true, rec)))
      (List.mem_cons_of_mem _ List.mem_cons_self))
    refine .inr ⟨row, hrow, hout, World.getState_ok.mp happroved.symm, fun hord => ?_⟩
    rcases hfirst hord with hsame | hnone
    · rw [← hsame, hfound] at hrow
      rw [← Option.some.inj hrow]
      exact hp
    · exact absurd (hnone.symm.trans hrow) (by simp)
  | @abandoned p actor request st base mid hc hbegun hmid hs ho =>
    subst ho
    have hover : QuietOver base (.getState p (.ok st) :: mid) := hmid.cons rfl
    refine begun_undispatched (p := p) h ih (hown ▸ hover.silent hbegun.silent) fun w₀ ha => ?_
    exact (hbegun.alone ((hown ▸ ha : Alone py _ w₀ _ w).over hover)).1.before
  | @reconcile p actor fp request rec base hc hadm ho =>
    subst ho
    obtain ⟨hauth, hst⟩ := hadm
    refine begun_undispatched (p := p) h ih (hown ▸ by simp [Step.dispatch]) fun w₀ ha => ?_
    rw [hown] at ha
    obtain ⟨_, hbase, hbegin, rfl⟩ := ha
    have := hbase.quiet (by simp [Step.quiet])
    subst this
    obtain ⟨ord, -, hr⟩ := hbegin
    exact .inl (Ledger.matching_eq_none (Ledger.begin_fresh hr.symm).1)

/-- **Every serial history dispatches each attempt at most once.** -/
theorem dispatchInv_of_reach (h : Reach py (some .attemptIdFirst) tr w) (hs : Serial tr) :
    DispatchInv tr w := by
  refine serial_induct ⟨fun _ _ hd => absurd hd List.not_mem_nil, List.nodup_nil⟩ ?_ h hs
  intro t c s tr w h ih hj ha
  have hinv : DispatchInv tr w := ih [] tr w rfl h.reach
  -- A row of a dispatched attempt is kept: only an undispatched one is discarded.
  have hkept : ∀ p x, (p, x) ∈ dispatches tr →
      ∃ row, (s.effect w).attempts.lookup x = some row ∧ row.pathwayId = p := by
    intro p x hd
    obtain ⟨row, hrow, hp⟩ := hinv.row p x hd
    cases row_cases hj ha x with
    | begun _ _ hnew => exact absurd (hnew.symm.trans hrow) (by simp)
    | @finished row' res r _ hrow' hnew =>
      obtain rfl := Option.some.inj (hrow'.symm.trans hrow)
      exact ⟨_, hnew, hp⟩
    | discarded hdis hrow' hout =>
      exact absurd (List.mem_map.mpr ⟨_, hd, rfl⟩) (hdis.undispatched h ih hrow' hout)
    | untouched hsame => exact ⟨row, hsame.trans hrow, hp⟩
  cases hdis : s.dispatch with
  | none =>
    have : dispatches (⟨t, c, w, s⟩ :: tr) = dispatches tr := by rw [dispatches_cons, hdis]; rfl
    exact ⟨this ▸ hkept, this ▸ hinv.once⟩
  | some d =>
    obtain ⟨p, x⟩ := d
    obtain ⟨request, r, rfl, rfl⟩ := Step.dispatch_eq_some hdis
    obtain ⟨actor, hc, hcleared⟩ := hj
    obtain ⟨-, -, w₀, -, -, halone, -⟩ := h.start hcleared.silent
    obtain ⟨row, hrow, hp, -⟩ := (hcleared.alone halone).1.row
    have hnew : dispatches (⟨t, c, w, .invokeExecutor p request r⟩ :: tr) =
        (p, request.attemptId) :: dispatches tr := rfl
    refine ⟨fun q y hd => ?_, ?_⟩
    · rcases List.mem_cons.mp (hnew ▸ hd) with hd | hd
      · obtain ⟨rfl, rfl⟩ := Prod.mk.inj hd
        exact ⟨row, hrow, hp⟩
      · exact hkept q y hd
    · rw [hnew]
      exact List.nodup_cons.mpr ⟨begun_undispatched h ih hcleared.silent
        fun w₀ ha => (hcleared.alone ha).1.before, hinv.once⟩

end Once

/-- **At-most-once dispatch across crashes**, when `begin` finds the row of the request's own attempt
first: in every run of calls made one after another, each of which may crash at any operation, the
executor is invoked at most once for each attempt id, and, when the redaction policies keep the
target state and the attempt id, only for the attempt named by the newest event that enters
`RUNNING`. -/
theorem attempts_dispatched_once (py : Platform) (calls : List (Call × List Oracle)) :
    ((dispatches (sequential py (some .attemptIdFirst) calls).trace).map Prod.snd).Nodup ∧
      ((∀ call ∈ calls, call.1.policy.KeepsStarts py) → ∀ newer e older p x,
        (sequential py (some .attemptIdFirst) calls).trace = newer ++ e :: older →
        e.step.dispatch = some (p, x) → activeAttempt (e.before.log p) = .ok x) := by
  obtain ⟨hreach, hserial, -⟩ := sequential_reach py (some .attemptIdFirst) calls
  refine ⟨(dispatchInv_of_reach hreach hserial).once, fun hkeep newer e older p x htr hdis => ?_⟩
  have hcaller : e.caller.policy.KeepsStarts py :=
    sequential_callers (P := fun c => c.policy.KeepsStarts py) hkeep e (by rw [htr]; simp)
  rw [htr] at hreach hserial
  obtain ⟨hbefore, hj⟩ := hreach.of_append
  obtain ⟨hlast, hold⟩ := List.pairwise_cons.mp (List.pairwise_append.mp hserial).2.1
  exact (dispatch_running ⟨hbefore, hold, hlast⟩ hj hdis).2 hcaller

/-- An execution that crashes after `begin`, and is made again. -/
def crashedExecution (policy : RedactionPolicy) : List (Call × List Oracle) :=
  [(Method.register (.sample none) "reg").answered {},
    (⟨policy, .execute "p" requestA "executor"⟩, List.replicate 3 {}),
    (⟨policy, .execute "p" requestA "executor"⟩, List.replicate 40 {})]

theorem attempts_dispatched_once_restart : ∃ newer e older,
    (sequential .sample (some .attemptIdFirst) (crashedExecution .default)).trace =
      newer ++ e :: older ∧ e.step.dispatch = some ("p", "a") ∧
      activeAttempt (e.before.log "p") = .ok "a" := by
  have hd : ("p", "a") ∈
      dispatches (sequential .sample (some .attemptIdFirst) (crashedExecution .default)).trace := by
    decide +kernel
  obtain ⟨newer, e, older, htr, hdis⟩ := dispatches_split hd
  refine ⟨newer, e, older, htr, hdis, (attempts_dispatched_once .sample _).2 ?_ _ _ _ _ _ htr hdis⟩
  simp [crashedExecution, Method.answered, (RedactionPolicy.default_keepsBindings _).starts]

/-- A policy that hides the attempt ids of events. -/
def hidesAttempts : RedactionPolicy := { RedactionPolicy.default with sensitiveKeys := ["attempt_id"] }

/-- **Under a policy that hides the attempt ids the log does not name the dispatched attempt.** -/
theorem dispatched_unreadable : ¬ ∀ (py : Platform) (calls : List (Call × List Oracle)),
    ((dispatches (sequential py (some .attemptIdFirst) calls).trace).map Prod.snd).Nodup ∧
      ∀ newer e older p x, (sequential py (some .attemptIdFirst) calls).trace = newer ++ e :: older →
        e.step.dispatch = some (p, x) → activeAttempt (e.before.log p) = .ok x := by
  intro h
  have hrun : ("p", "a") ∈ dispatches
      (sequential .sample (some .attemptIdFirst) (crashedExecution hidesAttempts)).trace ∧
      ∀ e ∈ (sequential .sample (some .attemptIdFirst) (crashedExecution hidesAttempts)).trace,
        e.step.dispatch = some ("p", "a") → activeAttempt (e.before.log "p") ≠ .ok "a" := by
    decide +kernel
  obtain ⟨hd, hlog⟩ := hrun
  obtain ⟨newer, e, older, htr, hdis⟩ := dispatches_split hd
  exact hlog e (by rw [htr]; simp) hdis ((h .sample _).2 newer e older "p" "a" htr hdis)

end Rpr
