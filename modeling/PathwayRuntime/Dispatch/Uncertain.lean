import PathwayRuntime.Trace.Methods

/-!
# Uncertain dispatches

* `Named`: the log has an event that enters `RUNNING` for the attempt.
* `Stranded`: the row of an attempt was left behind by the call that inserted it; `NoneStranded`:
  `execute` finds no such row outside `APPROVED` and `RUNNING`.
* `row_inserted`, `inserted_named`: the attempt of a row that was not left behind is named.
* **`uncertain_named`**: when it finds no row left behind, `execute` is only uncertain about attempts the
  log names.
* `uncertain_unnamed`: an attempt that was never dispatched is reported unknown.
-/

set_option autoImplicit false

namespace Rpr

open Resume

/-- The log has an event that enters `RUNNING` for the attempt. -/
def Named (w : World) (p x : String) : Prop :=
  ∃ e ∈ w.log p, e.entersRunning = true ∧ e.binding = some x

instance (w : World) (p x : String) : Decidable (Named w p x) :=
  inferInstanceAs (Decidable (∃ e ∈ w.log p, e.entersRunning = true ∧ e.binding = some x))

theorem Named.kept {w : World} {p x : String} (h : Named w p x) (s : Step) : Named (s.effect w) p x := by
  obtain ⟨e, he, henters, hx⟩ := h
  exact ⟨e, s.log_kept he, henters, hx⟩

/-- The bound attempt is named. -/
theorem named_of_active {w : World} {p x : String} (h : activeAttempt (w.log p) = .ok x) : Named w p x := by
  obtain ⟨newer, e, older, hlog, -, henters, hx⟩ := activeAttempt_eq_ok.mp h
  refine ⟨e, ?_, henters, hx⟩
  rw [hlog]
  exact List.mem_append_right _ List.mem_cons_self

/-- The method can only enter `RUNNING` for this attempt. -/
def Method.Enters (m : Method) (p x : String) : Prop :=
  match m with
  | .execute q request _ => q = p ∧ request.attemptId = x
  | .resume q _ _ next _ => q = p ∧ next = x
  | _ => False

/-- The step inserts a row for the attempt. -/
def Step.inserts (x : String) : Step → Bool
  | .begin _ request _ (.ok (false, _)) => request.attemptId = x
  | _ => false

/-- The step removes the row of the attempt. -/
def Step.removes (x : String) : Step → Bool
  | .discardStarted y true => y = x
  | _ => false

/-- The row of the attempt was left behind: the call that inserted it did so on a pathway that was not
`RUNNING`, and has neither entered `RUNNING` nor seen the row removed. -/
def Stranded (tr : List Record) (p x : String) : Prop :=
  ∃ newer m older, tr = newer ++ m :: older ∧ m.step.inserts x = true ∧
    m.before.state p ≠ some .running ∧
    ∀ n ∈ newer, n.step.removes x = false ∧ (n.tid = m.tid → n.step.starts p = false)

/-- The row has no final outcome. -/
def AttemptRow.unclassified (row : AttemptRow) : Bool :=
  row.final = none ∨ row.final = some .writeStatusUnknown

/-- Outside `APPROVED` and `RUNNING`, `execute` finds no unclassified row that was left behind, and none
of another attempt. -/
def NoneStranded (tr : List Record) : Prop :=
  ∀ newer e older p request actor fp rec, tr = newer ++ e :: older →
    e.caller.method = .execute p request actor → e.step = .begin p request fp (.ok (true, rec)) →
    rec.unclassified = true → e.before.state p ≠ some .approved → e.before.state p ≠ some .running →
    rec.attemptId = request.attemptId ∧ ¬ Stranded older p rec.attemptId

section Named

variable {py : Platform} {order : Option RowOrder} {tr : List Record} {w : World} {p x : String}

/-- A named attempt stays named. -/
theorem Named.later {newer older : List Record} {w' : World} (h : Reach py order (newer ++ older) w)
    (h' : Reach py order older w') (hnamed : Named w' p x) : Named w p x := by
  induction newer generalizing w with
  | nil =>
    obtain rfl := h'.unique h
    exact hnamed
  | cons e newer ih =>
    obtain ⟨hbefore, -, -, rfl⟩ := h.of_cons
    exact (ih hbefore).kept e.step

/-- An event that enters `RUNNING` names the attempt of its call. -/
theorem Commits.enters {c : Call} {own : Own} {cur : PathwayState} {event : EvidenceEvent}
    (h : Commits py c own p cur .running event) (hkeep : c.policy.KeepsBindings py) :
    ∃ x, c.method.Enters p x ∧ event.entersRunning = true ∧ event.binding = some x := by
  have henters : event.entersRunning = true := by
    rw [h.entersRunning hkeep]
    rfl
  generalize htarget : PathwayState.running = target at h
  cases h with
  | requested hc hrun => exact absurd htarget.symm hrun
  | moved hc hmove =>
    rcases hmove.target_cases with h | h | h <;> rw [h] at htarget <;> cases htarget
  | started hc hbegun hstart =>
    obtain ⟨d, mid, -, hseal⟩ := hstart
    exact ⟨_, by rw [hc]; exact ⟨rfl, rfl⟩, henters, hseal.started_binding hkeep.starts⟩
  | late hc hres hr =>
    rcases ExecutionResult.finalTarget_cases hr with ⟨h, -⟩ | ⟨h, -⟩ <;> rw [h] at htarget <;> cases htarget
  | reconciled =>
    unfold ExecutionResult.reconciledTarget at htarget
    split_ifs at htarget
  | repaired => cases htarget
  | resumed hc hblank hne hrec hrepair hcheck hseal =>
    exact ⟨_, by rw [hc]; exact ⟨rfl, rfl⟩, henters, hseal.resumed_binding hkeep hblank⟩
  | closed => cases htarget

/-- A row is only begun on a running pathway for the attempt its log is bound to. -/
theorem Begins.bound {c : Call} {own : Own} {request : ExecutionRequest} {w₀ : World}
    (h : Begins c own p request) (ha : Alone py order w₀ own w) (hrun : w.state p = some .running) :
    activeAttempt (w.log p) = .ok request.attemptId := by
  cases h with
  | execute hc hadm => exact (hadm.alone ha).2 hrun
  | again hc hadm hrec hown =>
    subst hown
    obtain ⟨w₁, ⟨w₂, -, hread, rfl⟩, -, rfl⟩ := ha
    have happroved : w₁.state p = some .approved := World.getState_ok.mp hread.symm
    exact absurd (happroved.symm.trans hrun) (by simp)
  | reconcile hc hadm =>
    obtain ⟨-, hs⟩ := hadm
    obtain ⟨w₁, -, hread, rfl⟩ := ha
    have hstate := World.getState_ok.mp hread.symm
    obtain rfl := Option.some.inj (hstate.symm.trans hrun)
    exact absurd hs (by decide)

/-- `execute` begins an attempt where it started, unless the pathway is `APPROVED`. -/
theorem Begins.before {c : Call} {own : Own} {request : ExecutionRequest} {w₀ : World}
    (h : Begins c own p request) (ha : Alone py order w₀ own w)
    (hc : ∀ q request actor, c.method ≠ .reconcile q request actor)
    (hstate : w₀.state p ≠ some .approved) : w = w₀ := by
  cases h with
  | execute hc hadm => exact (hadm.alone ha).1
  | @again _ _ _ _ base hc hadm hrec hown =>
    subst hown
    obtain ⟨w₁, ⟨w₂, h₂, hread, rfl⟩, -, rfl⟩ := ha
    obtain rfl := h₂.quiet (List.forall_mem_cons.mpr ⟨rfl, hadm.quiet⟩)
    exact absurd (World.getState_ok.mp hread.symm) hstate
  | reconcile hc' => exact absurd hc' (hc _ _ _)

/-- A call that begins an attempt enters `RUNNING` for no other. -/
theorem Begins.enters {c : Call} {own : Own} {request : ExecutionRequest}
    (h : Begins c own p request) (hx : c.method.Enters p x) : request.attemptId = x := by
  cases h with
  | execute hc | again hc =>
    rw [hc] at hx
    exact hx.2
  | reconcile hc =>
    rw [hc] at hx
    exact absurd hx id

/-- **Where a row comes from**: a call inserted it, and nobody removed it since. -/
theorem row_inserted (h : Reach py order tr w) {row : AttemptRow} (hrow : w.attempts.lookup x = some row) :
    ∃ newer m older request fp rec, tr = newer ++ m :: older ∧
      m.step = .begin row.pathwayId request fp (.ok (false, rec)) ∧ request.attemptId = x ∧
      ∀ n ∈ newer, n.step.removes x = false := by
  induction h using Reach.induct generalizing row with
  | start => cases hrow
  | step t c s tr w h ih hj ha h' =>
    have hstep : ∀ row', w.attempts.lookup x = some row' → row'.pathwayId = row.pathwayId →
        s.removes x = false → ∃ newer m older request fp rec, ⟨t, c, w, s⟩ :: tr = newer ++ m :: older ∧
          m.step = .begin row.pathwayId request fp (.ok (false, rec)) ∧ request.attemptId = x ∧
          ∀ n ∈ newer, n.step.removes x = false := by
      intro row' hrow' hp hkeeps
      obtain ⟨newer, m, older, request, fp, rec, rfl, hm, hx, hnewer⟩ := ih hrow'
      exact ⟨_ :: newer, m, older, request, fp, rec, rfl, hp ▸ hm, hx,
        List.forall_mem_cons.mpr ⟨hkeeps, hnewer⟩⟩
    cases row_cases hj ha x with
    | @begun p fp request rec hbegins hx hnew hrow' =>
      obtain rfl := Option.some.inj (hrow'.symm.trans hrow)
      exact ⟨[], _, tr, request, fp, rec, rfl, rfl, hx, fun n hn => absurd hn List.not_mem_nil⟩
    | finished hfinish hold hnew =>
      obtain rfl := Option.some.inj (hnew.symm.trans hrow)
      exact hstep _ hold rfl rfl
    | discarded hdiscard hold hout hnew => exact absurd (hnew.symm.trans hrow) (by simp)
    | untouched hsame =>
      refine hstep row (hsame.symm.trans hrow) rfl ?_
      by_contra hremoves
      obtain ⟨rfl⟩ : s = .discardStarted x true := by
        unfold Step.removes at hremoves
        split at hremoves
        · simp only [Bool.not_eq_false, decide_eq_true_eq] at hremoves
          rw [hremoves]
        · exact absurd rfl hremoves
      have herased : (w.attempts.discardStarted x).2.lookup x = none := by
        rw [(Ledger.discardStarted_true ha.symm).2, AList.lookup_erase]
      exact absurd (herased.symm.trans hrow) (by simp)

/-- **The attempt of a row that was not left behind is named.** -/
theorem inserted_named (h : Reach py order tr w) (hs : Serial tr)
    (hkeep : ∀ e ∈ tr, e.caller.policy.KeepsBindings py) {row : AttemptRow}
    (hrow : w.attempts.lookup x = some row) (hstranded : ¬ Stranded tr row.pathwayId x) :
    Named w row.pathwayId x := by
  generalize hp : row.pathwayId = p at hstranded ⊢
  obtain ⟨newer, m, older, request, fp, rec, rfl, hm, rfl, hnewer⟩ := row_inserted h hrow
  rw [hp] at hm
  obtain ⟨hbefore, hj⟩ := h.of_append
  obtain ⟨hlast, hserial⟩ := List.pairwise_cons.mp (List.pairwise_append.mp hs).2.1
  obtain ⟨-, -, w₀, -, -, -, halone⟩ := SerialReach.whole ⟨hbefore, hserial, hlast⟩
  have hbegins : Begins m.caller (own m.tid older) p request := by
    rw [hm] at hj
    exact hj
  by_cases hrun : m.before.state p = some .running
  · -- The row was inserted while `RUNNING`: the log was bound to its attempt.
    have hlater : Reach py order ((newer ++ [m]) ++ older) w := by simpa using h
    exact Named.later hlater hbefore (named_of_active (hbegins.bound halone hrun))
  · -- Otherwise its call went on to enter `RUNNING`.
    by_contra hnone
    refine hstranded ⟨newer, m, older, rfl, by simp [Step.inserts, hm], hrun, fun n hn =>
      ⟨hnewer n hn, fun ht => ?_⟩⟩
    by_contra hstarts
    obtain ⟨cur, event, hn'⟩ := Step.starts_eq_true (by simpa using hstarts)
    obtain ⟨a, b, rfl⟩ := List.append_of_mem hn
    have hcaller : n.caller = m.caller := h.callers n (by simp) m (by simp) ht
    rw [List.append_assoc] at h
    obtain ⟨hreach, hjust⟩ := h.of_append
    have hcommit : Commits py m.caller (own n.tid (b ++ m :: older)) p cur .running event := by
      rw [hn', hcaller] at hjust
      exact hjust
    obtain ⟨x, hx, henters, hbinding⟩ := hcommit.enters (hkeep m (by simp))
    obtain rfl := hbegins.enters hx
    have hlater : Reach py order (a ++ (n :: (b ++ m :: older))) w := h
    obtain ⟨w', hafter⟩ := hlater.suffix
    refine hnone (Named.later hlater hafter ⟨event, ?_, henters, hbinding⟩)
    obtain ⟨-, -, -, rfl⟩ := hafter.of_cons
    rw [hn']
    show event ∈ (n.before.commit p .running event).log p
    rw [World.log_commit, if_pos hcommit.pathwayId]
    exact List.mem_cons_self

end Named

/-! ## `execute` alone -/

section Execute

variable {py : Platform} {order : Option RowOrder} {A : Step → Prop} {policy : RedactionPolicy}
  {w : World} {p actor : String} {request : ExecutionRequest} {cur : PathwayState}
  {d : PathwayDefinition}

/-- An uncertain answer is recorded for a named attempt only. -/
def RecordsNamed (p x : String) (w : World) (s : Step) : Prop :=
  ∀ event, s = .appendEvent event (.ok ()) → event.eventType = "execution_replay_unresolved" →
    Named w p x

/-- An uncertain answer is returned for a named attempt only. -/
def ReturnsNamed (p x : String) : Except PyError ExecutionResult → World → Prop :=
  Leaves (fun r w => r.status = .writeStatusUnknown → Named w p x) fun _ => True

theorem recordsNamed_lenient {x : String} : Lenient (RecordsNamed p x) := by
  intro w event hty event' heq hty'
  obtain ⟨rfl, -⟩ := Step.appendEvent.inj heq
  exact absurd hty' hty

/-- Once the attempt is named, every answer is in order. -/
theorem solo_named {x : String} (hw : Named w p x) (q : Db ExecutionResult) :
    Solo py order A (RecordsNamed p x) (ReturnsNamed p x) q w := by
  refine Machine.Ensures.invariant (I := fun w => Named w p x) (fun op o w hw => ?_)
    (fun r w hw => ?_) hw
  · refine ⟨fun _ event _ _ => hw, ?_⟩
    show Named (exec py order op o w).2 p x
    rw [exec_effect]
    exact hw.kept _
  · cases r with
    | ok r => exact fun _ => hw
    | error e => trivial

/-- A dispatch names its attempt before anything else. -/
theorem solo_dispatch_named (hkeep : policy.KeepsBindings py) (hs : w.state p = some cur)
    (hd : w.getDefinition py p = .ok d) (hbound : cur = .running → Named w p request.attemptId) :
    Solo py order A (RecordsNamed p request.attemptId) (ReturnsNamed p request.attemptId)
      (dispatch py policy p request actor) w := by
  rw [dispatch_eq]
  refine solo_seq (solo_enterRunning hs hd) (fun u w₁ h => solo_named ?_ _) fun _ _ _ => trivial
  rcases h with ⟨hrun, rfl⟩ | ⟨-, event, hbuilt, rfl⟩
  · exact hbound hrun
  · obtain ⟨base, own, hseal⟩ := hbuilt.sealed
    refine ⟨event, ?_, hseal.started_enters hkeep.starts, hseal.started_binding hkeep.starts⟩
    rw [World.log_commit, if_pos hbuilt.pathwayId]
    exact List.mem_cons_self

/-- **`execute` alone**, when the unclassified rows it finds outside `APPROVED` and `RUNNING` are those
of named attempts. -/
theorem solo_execute_named (hkeep : policy.KeepsBindings py)
    (hfound : ∀ fp rec, A (.begin p request fp (.ok (true, rec))) → rec.unclassified = true →
      w.state p ≠ some .approved → w.state p ≠ some .running → Named w p request.attemptId) :
    Solo py order A (RecordsNamed p request.attemptId) (ReturnsNamed p request.attemptId)
      (execute py policy p request actor) w := by
  unfold execute
  refine solo_seq solo_admitExecution (fun u w₀ h => ?_) fun _ _ _ => trivial
  obtain ⟨rfl, d, s, hadm⟩ := h
  have hbound : s = .running → Named w₀ p request.attemptId := fun hrun =>
    named_of_active (hadm.bound hrun)
  refine solo_begin (fun ord fp rec _ _ _ => ?_) (fun ord fp rec _ _ _ ha => ?_) fun _ _ => trivial
  · exact solo_dispatch_named hkeep hadm.state hadm.definition hbound
  · dsimp only
    rw [if_neg (by decide)]
    -- The attempt is named, unless its row is classified or the pathway is `APPROVED`.
    have hnamed : rec.unclassified = true → s ≠ .approved → Named w₀ p request.attemptId := by
      intro hopen happroved
      by_cases hrun : s = .running
      · exact hbound hrun
      · refine hfound fp rec ha hopen ?_ ?_
        · rw [hadm.state]
          simpa using happroved
        · rw [hadm.state]
          simpa using hrun
    cases hout : rec.outcome with
    | some stored =>
      refine solo_ofExcept (fun r hr => ?_) fun _ _ => trivial
      by_cases hunknown : stored.status = .writeStatusUnknown
      · by_cases happroved : s = .approved
        · refine solo_seq (solo_finishExecutionPathway hadm.state hadm.definition) (fun u w' h => ?_)
            fun _ _ _ => trivial
          exact absurd h.2 (happroved ▸ not_finishAccepted_approved)
        · exact solo_named (hnamed (by simp [AttemptRow.unclassified, AttemptRow.final, hout, hunknown])
            happroved) _
      · refine solo_seq (solo_finishExecutionPathway hadm.state hadm.definition) (fun u w' h => ?_)
          fun _ _ _ => trivial
        exact solo_pure fun hr' => absurd ((PersistedResult.status_eq hr).symm.trans hr') hunknown
    | none =>
      refine solo_getState_some hadm.state ?_
      by_cases happroved : s = .approved
      · rw [if_pos happroved]
        subst happroved
        refine solo_seq (solo_restartAttempt recordsNamed_lenient) (fun u w' h => ?_) fun _ _ _ => trivial
        exact solo_dispatch_named hkeep (h.1.trans hadm.state) (h.2.1.trans hadm.definition)
          fun hrun => by cases hrun
      · rw [if_neg happroved]
        exact solo_named (hnamed (by simp [AttemptRow.unclassified, AttemptRow.final, hout])
          happroved) _

end Execute

/-- **`execute` is only uncertain about attempts the log names**, in every run in which it finds no row
that was left behind. -/
theorem uncertain_named (py : Platform) (order : Option RowOrder) (calls : List (Call × List Oracle))
    (c : Call) (os : List Oracle) (p actor : String) (request : ExecutionRequest)
    (hc : c.method = .execute p request actor)
    (hkeep : ∀ call ∈ calls ++ [(c, os)], call.1.policy.KeepsBindings py)
    (hnone : NoneStranded (lastCall py order calls c os).2.trace) :
    (∀ e ∈ (lastCall py order calls c os).2.trace, e.tid = calls.length →
      ∀ event, e.step = .appendEvent event (.ok ()) → event.eventType = "execution_replay_unresolved" →
        Named e.before p request.attemptId) ∧
    ∀ r, (lastCall py order calls c os).1 = .returned (.executed r) → r.status = .writeStatusUnknown →
      Named (lastCall py order calls c os).2.world p request.attemptId := by
  have hbody : c.body py = (do return .executed (← execute py c.policy p request actor)) := by
    rw [Call.body, hc]
  have hlast := sequential_reach py order (calls ++ [(c, os)])
  rw [← lastCall_hist] at hlast
  have hkeep' : ∀ e ∈ (lastCall py order calls c os).2.trace, e.caller.policy.KeepsBindings py := by
    rw [lastCall_hist]
    exact sequential_keeps hkeep
  -- What `begin` finds is found where the call began.
  have hfound : ∀ s ∈ lastSteps py order calls c os, ∀ fp rec,
      s = .begin p request fp (.ok (true, rec)) → rec.unclassified = true →
      (sequential py order calls).world.state p ≠ some .approved →
      (sequential py order calls).world.state p ≠ some .running →
      Named (sequential py order calls).world p request.attemptId := by
    rintro s hs fp rec rfl hopen happroved hrunning
    obtain ⟨newer, e, mid, htr, hstep, hcaller, hj, halone⟩ := lastCall_moment hs
    obtain ⟨hreach, hserial, -⟩ := hlast
    rw [htr] at hreach hserial hkeep'
    have hbefore : e.before = (sequential py order calls).world :=
      Begins.before hj halone (by rw [hc]; simp) happroved
    rw [← hbefore] at happroved hrunning ⊢
    obtain ⟨hsame, hstranded⟩ := hnone newer e _ p request actor fp rec htr (hcaller ▸ hc) hstep hopen
      happroved hrunning
    have hanswer := hreach.answers
    rw [hstep] at hanswer
    obtain ⟨hrow, hp, -⟩ := replayed_row hanswer
    have hnamed := inserted_named hreach.of_append.1
      (List.pairwise_cons.mp (List.pairwise_append.mp hserial).2.1).2
      (fun m hm => hkeep' m (by simp at hm ⊢; tauto)) hrow (by rwa [hp])
    rwa [hp, hsame] at hnamed
  obtain ⟨hrecords, hreturns⟩ := solo_last hbody
    (solo_execute_named (hkeep (c, os) (by simp)) fun fp rec ha => ha fp rec rfl) hfound
  refine ⟨fun e he ht event hstep hty => ?_, fun r hr hunknown => ?_⟩
  · exact hrecords e he ht (by rw [hstep]; rfl) event hstep hty
  · rw [hr] at hreturns
    obtain ⟨r', hr', hnamed⟩ := hreturns
    obtain rfl := CallResult.executed.inj hr'
    exact hnamed hunknown

/-- An execution of `a` that crashes right after it began the attempt. -/
def crashedBegin : Call × List Oracle :=
  (⟨.default, .execute "p" requestA "executor"⟩, List.replicate 3 {})

/-- An execution of `a` whose executor raises. -/
def executingA : Call × List Oracle := (Method.execute "p" requestA "executor").answered {}

/-- A row is only found on an `APPROVED` pathway. -/
def foundApproved (e : Record) : Bool :=
  match e.step with
  | .begin p _ _ (.ok (true, _)) => e.before.state p = some .approved
  | _ => true

/-- The call returned that the write is unknown. -/
def answersUnknown : Outcome PyError CallResult → Bool
  | .returned (.executed r) => r.status = .writeStatusUnknown
  | _ => false

theorem answersUnknown_eq_true {o : Outcome PyError CallResult} (h : answersUnknown o = true) :
    ∃ r, o = .returned (.executed r) ∧ r.status = .writeStatusUnknown := by
  unfold answersUnknown at h
  split at h
  · exact ⟨_, rfl, of_decide_eq_true h⟩
  · cases h

theorem crashedBegin_keeps (more : List (Call × List Oracle))
    (hmore : ∀ call ∈ more, call.1.policy = .default) :
    ∀ call ∈ (approvedCalls ++ crashedBegin :: more) ++ [executingA],
      call.1.policy.KeepsBindings .sample := by
  intro call hcall
  have hpolicy : call.1.policy = .default := by
    simp only [approvedCalls, List.mem_append, List.mem_cons, List.not_mem_nil, or_false] at hcall
    rcases hcall with (rfl | rfl | h) | rfl
    · rfl
    · rfl
    · exact hmore call h
    · rfl
  rw [hpolicy]
  exact RedactionPolicy.default_keepsBindings .sample

/-- A row left behind on an `APPROVED` pathway does no harm. -/
theorem uncertain_named_restarted : ∃ r,
    (lastCall .sample none (approvedCalls ++ [crashedBegin]) executingA.1 executingA.2).1 =
      .returned (.executed r) ∧ r.status = .writeStatusUnknown ∧
    Named (lastCall .sample none (approvedCalls ++ [crashedBegin]) executingA.1 executingA.2).2.world
      "p" "a" := by
  have hrun : answersUnknown (lastCall .sample none (approvedCalls ++ [crashedBegin]) executingA.1
      executingA.2).1 = true ∧
      ∀ e ∈ (lastCall .sample none (approvedCalls ++ [crashedBegin]) executingA.1 executingA.2).2.trace,
        foundApproved e = true := by
    decide +kernel
  obtain ⟨huncertain, happroved⟩ := hrun
  obtain ⟨r, hr, hunknown⟩ := answersUnknown_eq_true huncertain
  have hnone : NoneStranded
      (lastCall .sample none (approvedCalls ++ [crashedBegin]) executingA.1 executingA.2).2.trace := by
    intro newer e older p request actor fp rec htr hc hstep hopen hstate
    have hfound := happroved e (htr ▸ List.mem_append_right _ List.mem_cons_self)
    rw [foundApproved, hstep] at hfound
    exact absurd (of_decide_eq_true hfound) hstate
  have hkeep : ∀ call ∈ (approvedCalls ++ [crashedBegin]) ++ [executingA],
      call.1.policy.KeepsBindings .sample := crashedBegin_keeps [] (by simp)
  have hnamed := uncertain_named .sample none (approvedCalls ++ [crashedBegin]) executingA.1 executingA.2
    "p" "executor" requestA rfl hkeep hnone
  exact ⟨r, hr, hunknown, hnamed.2 r hr hunknown⟩

/-- **An attempt that was never dispatched is reported unknown**: its execution crashed before
`RUNNING` was entered, and the pathway was held before the attempt was executed again. -/
theorem uncertain_unnamed : ¬ ∀ (py : Platform) (order : Option RowOrder)
    (calls : List (Call × List Oracle)) (c : Call) (os : List Oracle) (p actor : String)
    (request : ExecutionRequest), c.method = .execute p request actor →
    (∀ call ∈ calls ++ [(c, os)], call.1.policy.KeepsBindings py) →
    ∀ r, (lastCall py order calls c os).1 = .returned (.executed r) → r.status = .writeStatusUnknown →
      Named (lastCall py order calls c os).2.world p request.attemptId := by
  intro h
  let hold : Call × List Oracle := (Method.transition "p" .held "stopper" "wait").answered {}
  have hrun : answersUnknown (lastCall .sample none (approvedCalls ++ [crashedBegin, hold])
      executingA.1 executingA.2).1 = true ∧
      ¬ Named (lastCall .sample none (approvedCalls ++ [crashedBegin, hold]) executingA.1
        executingA.2).2.world "p" "a" := by
    decide +kernel
  obtain ⟨huncertain, hunnamed⟩ := hrun
  obtain ⟨r, hr, hunknown⟩ := answersUnknown_eq_true huncertain
  exact hunnamed (h .sample none _ _ _ "p" "executor" requestA rfl
    (crashedBegin_keeps [hold] (by simp [hold, Method.answered])) r hr hunknown)

end Rpr
