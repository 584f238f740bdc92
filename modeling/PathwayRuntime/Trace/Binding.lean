import PathwayRuntime.Trace.Serial

/-!
# The attempt a log is bound to

* `afterRunning`: the states of a pathway that has been `RUNNING`.
* What each kind of event does to `activeAttempt` and to `latestRepair`, when the redaction policy
  keeps the binding keys.
* `Cleared.bound`: in a serial history the executor is only invoked on a running pathway, for the
  attempt its log is bound to.
-/

set_option autoImplicit false

namespace Rpr

open Resume

/-- The states of a pathway that has been `RUNNING`. No edge leads out of them. -/
def afterRunning : List PathwayState :=
  [.running, .stopped, .partiallyCompleted, .writeStatusUnknown, .repairRequired, .readyToResume,
    .completed, .aborted]

theorem afterRunning_closed {a b : PathwayState} (ha : a ∈ afterRunning)
    (h : b ∈ allowedTransitions a) : b ∈ afterRunning := by
  cases a
  case proposed | awaitingApproval | approved | held | humanGate | denied => exact absurd ha (by decide)
  all_goals
    revert b
    decide

/-- The step enters `RUNNING`. -/
def Step.starts (p : String) : Step → Bool
  | .transitionWithEvent q _ .running _ (.ok ()) => q = p
  | _ => false

theorem Step.starts_eq_true {s : Step} {p : String} (h : s.starts p = true) :
    ∃ cur event, s = .transitionWithEvent p cur .running event (.ok ()) := by
  unfold starts at h
  split at h
  · obtain rfl := of_decide_eq_true h
    exact ⟨_, _, rfl⟩
  · cases h

section Ran

variable {py : Platform} {order : Option RowOrder} {c : Call} {s : Step} {w : World} {p : String}

/-- A pathway that has been running stays one that has been. -/
theorem ran_kept {own : Own} (hj : Justified py c own s) (ha : s.Answers py order w)
    (h : ∃ st ∈ afterRunning, w.state p = some st) :
    ∃ st ∈ afterRunning, (s.effect w).state p = some st := by
  obtain ⟨st, hst, hw⟩ := h
  cases pathway_cases hj ha p with
  | created hd hreg hnew => exact absurd (hnew.symm.trans hw) (by simp)
  | committed hcommit hcur hstate =>
    obtain rfl := Option.some.inj (hcur.symm.trans hw)
    exact ⟨_, afterRunning_closed hst hcommit.edge.1, hstate⟩
  | appended => exact ⟨st, hst, hw⟩
  | untouched hstate => exact ⟨st, hst, hstate.trans hw⟩

/-- A pathway that was started has been running. -/
theorem started_ran {newer older : List Record} {e : Record} {cur : PathwayState} {event : EvidenceEvent}
    (h : Reach py order (newer ++ e :: older) w)
    (he : e.step = .transitionWithEvent p cur .running event (.ok ())) :
    ∃ st ∈ afterRunning, w.state p = some st := by
  induction newer generalizing w with
  | nil =>
    obtain ⟨-, hj, ha, rfl⟩ := h.of_cons
    rw [he] at ha ⊢
    have hcur := (World.transitionWithEvent_ok ha.symm).1
    refine ⟨.running, by decide, ?_⟩
    show (e.before.commit p .running event).state p = _
    rw [World.state_commit, if_pos rfl, hcur]
    rfl
  | cons e' newer ih =>
    obtain ⟨hbefore, hj, ha, rfl⟩ := h.of_cons
    exact ran_kept hj ha (ih hbefore)

end Ran

/-! ## Events -/

section Events

variable {py : Platform} {policy : RedactionPolicy} {p actor : String} {base own : Own}
  {e : EvidenceEvent} {log : List EvidenceEvent} {x : String}

theorem activeAttempt_skip (he : e.entersRunning = false) :
    activeAttempt (e :: log) = activeAttempt log := by
  rw [activeAttempt, activeAttempt, List.find?_cons_of_neg (by rw [he]; decide)]

/-- The attempt named by the newest event that enters `RUNNING`. -/
theorem activeAttempt_eq_ok : activeAttempt log = .ok x ↔ ∃ newer b older, log = newer ++ b :: older ∧
    (∀ m ∈ newer, m.entersRunning = false) ∧ b.entersRunning = true ∧ b.binding = some x := by
  have hfind : activeAttempt log = .ok x ↔
      ∃ b, log.find? EvidenceEvent.entersRunning = some b ∧ b.binding = some x := by
    unfold activeAttempt
    cases log.find? EvidenceEvent.entersRunning with
    | none => simp
    | some e => cases hb : e.binding <;> simp [hb]
  rw [hfind]
  constructor
  · rintro ⟨b, hb, hx⟩
    obtain ⟨henters, newer, older, rfl, hskip⟩ := List.find?_eq_some_iff_append.mp hb
    exact ⟨newer, b, older, rfl, fun m hm => by simpa using hskip m hm, henters, hx⟩
  · rintro ⟨newer, b, older, rfl, hskip, henters, hx⟩
    exact ⟨b, List.find?_eq_some_iff_append.mpr
      ⟨henters, newer, older, rfl, fun m hm => by simp [hskip m hm]⟩, hx⟩

theorem activeAttempt_enter (he : e.entersRunning = true) (hb : e.binding = some x) :
    activeAttempt (e :: log) = .ok x := by
  rw [activeAttempt, List.find?_cons_of_pos he]
  simp only [hb]

theorem activeAttempt_head (he : e.entersRunning = true) :
    activeAttempt (e :: log) = .ok x ↔ e.binding = some x := by
  refine ⟨fun h => ?_, activeAttempt_enter he⟩
  rw [activeAttempt, List.find?_cons_of_pos he] at h
  cases hb : e.binding with
  | none => simp only [hb] at h; cases h
  | some y =>
    simp only [hb] at h
    exact congrArg some (Except.ok.inj h)

theorem latestRepair_skip (he : e.eventType ≠ "repair_completed") :
    latestRepair (e :: log) = latestRepair log := by
  rw [latestRepair, latestRepair, List.find?_cons_of_neg (by simpa using he)]

theorem latestRepair_enter (he : e.eventType = "repair_completed") :
    latestRepair (e :: log) = e.text? "prior_attempt_id" := by
  rw [latestRepair, List.find?_cons_of_pos (by simpa using he)]
  rfl

/-- `execution_started` binds the attempt of its request. -/
theorem Sealed.started_binding {cur : PathwayState} {request : ExecutionRequest}
    (h : Sealed py policy p "execution_started" actor (edgeFields cur .running ++
      (request.fields ++ [("reason", .text "execution_started")])) base own e)
    (hk : policy.KeepsStarts py) : e.binding = some request.attemptId := by
  rw [EvidenceEvent.binding, if_pos h.fields.2.1, h.text (s := request.attemptId)
    (hk "attempt_id" (by decide)) rfl (by simp [edgeFields, ExecutionRequest.fields])]
  simp [request.attemptId_required]

theorem Sealed.started_enters {cur : PathwayState} {request : ExecutionRequest}
    (h : Sealed py policy p "execution_started" actor (edgeFields cur .running ++
      (request.fields ++ [("reason", .text "execution_started")])) base own e)
    (hk : policy.KeepsStarts py) : e.entersRunning = true := by
  rw [EvidenceEvent.entersRunning, h.text (s := PathwayState.running.value)
    (hk "to" (by decide)) rfl (by simp [edgeFields, ExecutionRequest.fields])]
  rfl

/-- `pathway_resumed` binds its next attempt. -/
theorem Sealed.resumed_binding {cur : PathwayState} {prior next : String} {reason : PyText}
    (h : Sealed py policy p "pathway_resumed" actor (edgeFields cur .running ++
      [("prior_attempt_id", .text prior), ("next_attempt_id", .text next), ("reason", .str reason)])
      base own e)
    (hk : policy.KeepsBindings py) (hblank : isBlank next = false) : e.binding = some next := by
  rw [EvidenceEvent.binding, h.fields.2.1, if_neg (by decide), if_pos rfl, h.text (s := next)
    (hk "next_attempt_id" (by decide)) rfl (by simp [edgeFields])]
  simp [hblank]

variable {c : Call} {cur target : PathwayState}

theorem Commits.entersRunning (h : Commits py c own p cur target e) (hk : c.policy.KeepsBindings py) :
    e.entersRunning = decide (target = .running) := by
  rw [EvidenceEvent.entersRunning, (h.text hk).2]
  refine decide_eq_decide.mpr ⟨fun ht => PathwayState.value_injective (Option.some.inj ht), fun ht => ?_⟩
  rw [ht]

theorem Appends.entersRunning (h : Appends py c own e) : e.entersRunning = false := by
  rw [EvidenceEvent.entersRunning, EvidenceEvent.text?, h.absent]
  rfl

end Events

/-- Only a commit into `RUNNING` changes the attempt a log is bound to. -/
theorem activeAttempt_kept {py : Platform} {order : Option RowOrder} {c : Call} {own : Own} {s : Step}
    {w : World} {p : String} (hj : Justified py c own s) (ha : s.Answers py order w)
    (hk : c.policy.KeepsBindings py)
    (hs : ∀ cur e, s ≠ .transitionWithEvent p cur .running e (.ok ())) :
    activeAttempt ((s.effect w).log p) = activeAttempt (w.log p) := by
  cases pathway_cases hj ha p with
  | created => rfl
  | @committed cur target e hcommit _ _ hlog =>
    have htarget : target ≠ .running := fun ht => hs cur e (by rw [ht])
    rw [show (Step.effect (.transitionWithEvent p cur target e (.ok ())) w).log p = _ from hlog]
    exact activeAttempt_skip (by rw [hcommit.entersRunning hk, decide_eq_false htarget])
  | @appended e happ _ hlog =>
    rw [show (Step.effect (.appendEvent e (.ok ())) w).log p = _ from hlog]
    exact activeAttempt_skip happ.entersRunning
  | untouched _ _ hlog => rw [hlog]

/-! ## What the points of `execute` say -/

section Points

variable {py : Platform} {order : Option RowOrder} {w₀ w : World} {p : String}
  {request : ExecutionRequest} {actor : String} {policy : RedactionPolicy} {own : Own}

/-- A replayed row is a row of the ledger, and of this pathway. -/
theorem replayed_row {fp : String} {rec : ExecutionAttemptRecord}
    (ha : (Step.begin p request fp (.ok (true, rec))).Answers py order w) :
    w.attempts.lookup rec.attemptId = some rec.toAttemptRow ∧ rec.pathwayId = p ∧
      (order = some .attemptIdFirst →
        rec.attemptId = request.attemptId ∨ w.attempts.lookup request.attemptId = none) := by
  obtain ⟨ord, hord, hr⟩ := ha
  obtain ⟨hm, hp, -⟩ := Ledger.begin_replayed hr.symm
  refine ⟨Ledger.matching_eq_some hm, hp, fun h => ?_⟩
  obtain rfl := hord .attemptIdFirst h
  exact Ledger.matching_attemptIdFirst hm

theorem Admitted.quiet (h : Admitted p request actor own) : ∀ s ∈ own, s.quiet := by
  cases h <;> simp [Step.quiet]

/-- An admitted call may run a pathway only for the attempt it is bound to. -/
theorem Admitted.alone (h : Admitted p request actor own) (ha : Alone py order w₀ own w) :
    w = w₀ ∧ (w.state p = some .running → activeAttempt (w.log p) = .ok request.attemptId) := by
  obtain rfl := ha.quiet h.quiet
  have hall := ha.answers h.quiet
  refine ⟨rfl, fun hrun => ?_⟩
  cases h with
  | @idle d s hauth hs =>
    have hread : .ok s = w.getState p := hall (.getState p (.ok s)) List.mem_cons_self
    rw [World.getState_ok.mp hread.symm] at hrun
    exact absurd (Option.some.inj hrun) hs
  | @running d events hauth hbound =>
    have hread : events = (w.log p).reverse := hall (.events p events) List.mem_cons_self
    rwa [hread, List.reverse_reverse] at hbound

/-- How the row of a begun attempt stood before its call: absent, or started on a pathway that was
still `APPROVED`. -/
def Undispatched (order : Option RowOrder) (w₀ : World) (p x : String) : Prop :=
  w₀.attempts.lookup x = none ∨ ∃ row, w₀.attempts.lookup x = some row ∧ row.outcome = none ∧
    w₀.state p = some .approved ∧ (order = some .attemptIdFirst → row.pathwayId = p)

/-- What a call that began an attempt has done so far. -/
structure BegunFrom (order : Option RowOrder) (w₀ w : World) (p x : String) : Prop where
  row : ∃ row, w.attempts.lookup x = some row ∧ row.pathwayId = p ∧ row.outcome = none
  others : ∀ y, y ≠ x → w.attempts.lookup y = w₀.attempts.lookup y
  before : Undispatched order w₀ p x

theorem BegunFrom.fresh {fp : String} {rec : ExecutionAttemptRecord}
    (ha : (Step.begin p request fp (.ok (false, rec))).Answers py order w)
    (hothers : ∀ y, y ≠ request.attemptId → w.attempts.lookup y = w₀.attempts.lookup y)
    (hbefore : w.attempts.lookup request.attemptId = none → Undispatched order w₀ p request.attemptId) :
    BegunFrom order w₀ ((Step.begin p request fp (.ok (false, rec))).effect w) p request.attemptId := by
  obtain ⟨ord, -, hr⟩ := ha
  have hnone := Ledger.matching_eq_none (Ledger.begin_fresh hr.symm).1
  refine ⟨⟨Ledger.startedRow p request fp, AList.lookup_insert _, rfl, rfl⟩, fun y hy => ?_,
    hbefore hnone⟩
  exact (AList.lookup_insert_ne hy).trans (hothers y hy)

/-- A begun attempt is started under its pathway; its row was not that of a dispatched attempt. -/
theorem Begun.alone (h : Begun p request actor own) (ha : Alone py order w₀ own w) :
    BegunFrom order w₀ w p request.attemptId ∧ (∀ q, w.state q = w₀.state q) ∧
      (w.state p = some .running → activeAttempt (w.log p) = .ok request.attemptId) := by
  cases h with
  | fresh h =>
    obtain ⟨w₁, h₁, ha₁, rfl⟩ := ha
    obtain ⟨rfl, hbound⟩ := h.alone h₁
    exact ⟨.fresh ha₁ (fun _ _ => rfl) .inl, fun _ => rfl, hbound⟩
  | @restarted fp fp' rec rec' base own h hrec hown =>
    obtain ⟨event, hash, u, rfl⟩ := hown
    obtain ⟨_, ⟨_, ⟨_, ⟨_, ⟨w₁, ⟨_, ⟨_, h₀, ha₀, rfl⟩, hread, rfl⟩, hdiscard, rfl⟩, hbegin, rfl⟩, -, rfl⟩, -,
      rfl⟩, -, rfl⟩ := ha
    obtain ⟨rfl, -⟩ := h.alone h₀
    have happroved : w₁.state p = some .approved := World.getState_ok.mp hread.symm
    obtain ⟨hrow, hp, hfirst⟩ := replayed_row ha₀
    obtain ⟨⟨row, hx, hout⟩, herase⟩ := Ledger.discardStarted_true hdiscard.symm
    have hfresh := BegunFrom.fresh hbegin
      (fun y hy => by
        show (w₁.attempts.discardStarted request.attemptId).2.lookup y = _
        rw [herase, AList.lookup_erase_ne hy])
      fun _ => .inr ⟨row, hx, hout, happroved, fun hord => ?_⟩
    · refine ⟨⟨hfresh.row, hfresh.others, hfresh.before⟩, fun _ => rfl, fun hrun => ?_⟩
      exact absurd (happroved.symm.trans hrun) (by simp)
    · rcases hfirst hord with hsame | hnone
      · rw [← hsame, hrow] at hx
        rw [← Option.some.inj hx]
        exact hp
      · exact absurd (hnone.symm.trans hx) (by simp)

theorem Starting.quiet {cur : PathwayState} {event : EvidenceEvent} {base own : Own}
    (h : Starting py policy p request actor cur event base own) : QuietOver base own := by
  obtain ⟨d, mid, hcheck, hseal⟩ := h
  exact (((QuietOver.refl base).cons rfl).trans hcheck.quiet).trans hseal.quiet

/-- The commit of `execution_started` is made on an `APPROVED` pathway. -/
theorem Starting.alone {cur : PathwayState} {event : EvidenceEvent} {base own : Own}
    (h : Starting py policy p request actor cur event base own) (ha : Alone py order w₀ own w) :
    w.state p = some .approved := by
  obtain ⟨d, mid, hcheck, hseal⟩ := h
  obtain ⟨_, -, hread, rfl⟩ := ha.over (hcheck.quiet.trans hseal.quiet)
  exact World.getState_ok.mp hread.symm

/-- **The executor is invoked on a running pathway, for the attempt its log is bound to.** -/
theorem Cleared.alone (h : Cleared py policy p request actor own) (ha : Alone py order w₀ own w) :
    BegunFrom order w₀ w p request.attemptId ∧ w.state p = some .running ∧
      (policy.KeepsStarts py → activeAttempt (w.log p) = .ok request.attemptId) := by
  cases h with
  | @started cur event base own hb hstart =>
    obtain ⟨w', h', hcommit, rfl⟩ := ha
    obtain ⟨hrow, -, -⟩ := hb.alone (h'.over hstart.quiet)
    obtain ⟨hcur, -⟩ := World.transitionWithEvent_ok hcommit.symm
    obtain ⟨d, mid, hcheck, hseal⟩ := hstart
    refine ⟨?_, ?_, fun hk => ?_⟩
    · exact ⟨by simpa [Step.effect] using hrow.row, by simpa [Step.effect] using hrow.others, hrow.before⟩
    · show (w'.commit p .running event).state p = _
      rw [World.state_commit, if_pos rfl, hcur]
      rfl
    · show activeAttempt ((w'.commit p .running event).log p) = _
      rw [World.log_commit, if_pos hseal.fields.1]
      exact activeAttempt_enter (hseal.started_enters hk) (hseal.started_binding hk)
  | running hb =>
    obtain ⟨w', h', hread, rfl⟩ := ha
    obtain ⟨hrow, -, hbound⟩ := hb.alone h'
    have hrun : w.state p = some .running := World.getState_ok.mp hread.symm
    exact ⟨hrow, hrun, fun _ => hbound hrun⟩

/-! ### No point of `execute` lies after an invocation of its own -/

theorem Admitted.silent (h : Admitted p request actor own) : ∀ s ∈ own, s.dispatch = none :=
  fun s hs => Step.dispatch_quiet (h.quiet s hs)

theorem Begun.silent (h : Begun p request actor own) : ∀ s ∈ own, s.dispatch = none := by
  cases h with
  | fresh h => exact List.forall_mem_cons.mpr ⟨rfl, h.silent⟩
  | restarted h hrec hown =>
    obtain ⟨event, hash, u, rfl⟩ := hown
    simpa [Step.dispatch] using h.silent

theorem QuietOver.silent {base own : Own} (h : QuietOver base own)
    (hbase : ∀ s ∈ base, s.dispatch = none) : ∀ s ∈ own, s.dispatch = none := by
  obtain ⟨extra, rfl, hq⟩ := h
  exact List.forall_mem_append.mpr ⟨fun s hs => Step.dispatch_quiet (hq s hs), hbase⟩

theorem Cleared.silent (h : Cleared py policy p request actor own) : ∀ s ∈ own, s.dispatch = none := by
  cases h with
  | started hb hstart => exact List.forall_mem_cons.mpr ⟨rfl, hstart.quiet.silent hb.silent⟩
  | running hb => exact List.forall_mem_cons.mpr ⟨rfl, hb.silent⟩

end Points

end Rpr
