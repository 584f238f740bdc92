import PathwayRuntime.Log.Derivation

/-!
# Who may move a pathway

* **`executor_gated`**: the executor is only invoked for a pathway that was registered as approved,
  without an approval authority, or was approved by its approval authority.
* **`changes_declared`**: when every denial is made by a declared holder, and no residual owner has
  surrounding white space, every state change is made by a declared holder.
-/

set_option autoImplicit false

namespace Rpr

open Resume

/-! ## The human gate -/

/-- The states a pathway can only be in after an approval. -/
def gatedStates : List PathwayState :=
  [.approved, .running, .stopped, .partiallyCompleted, .writeStatusUnknown, .repairRequired,
    .readyToResume, .completed]

/-- The pathway was inserted as `APPROVED`: the combined decision was `ALLOW` and its definition has
no approval authority. -/
def InsertedApproved (tr : List Record) (p : String) : Prop :=
  ∃ x ∈ tr, ∃ y ∈ tr, ∃ d fp key s outcome decision codes raw,
    x.step = .createOrReplayPathway d fp .approved key (.ok (false, s)) ∧ d.pathwayId = p ∧
    y.tid = x.tid ∧ y.step = .evaluateRpe d outcome ∧ outcome.read = .ok (decision, codes, raw) ∧
    combine (inspectPathway d).decision decision = .allow ∧ d.approvalAuthority = none

/-- The log has a `state_transition` to `APPROVED` by the approval authority of the definition. -/
def ApprovedBy (py : Platform) (tr : List Record) (w : World) (p : String) : Prop :=
  ∃ d a event, w.definitionJson p = some (PathwayDefinition.toDict d) ∧
    d.approvalAuthority = some a ∧ a ≠ "" ∧ event ∈ w.log p ∧
    event.eventType = "state_transition" ∧ strip event.actor = a ∧
    ∃ x ∈ tr, ∃ cur, x.step = .transitionWithEvent p cur .approved event (.ok ()) ∧
      (x.caller.policy.KeepsBindings py → event.text? "to" = some PathwayState.approved.value)

/-- The pathway passed the human gate. -/
def Gated (py : Platform) (tr : List Record) (w : World) (p : String) : Prop :=
  InsertedApproved tr p ∨ ApprovedBy py tr w p

/-- A gated state other than `APPROVED` is only reached from a gated state. -/
theorem gatedStates_source {a b : PathwayState} (h : b ∈ allowedTransitions a)
    (hb : b ∈ gatedStates) (hne : b ≠ .approved) : a ∈ gatedStates := by
  cases a
  case proposed | awaitingApproval | held | humanGate =>
    cases b <;> first | exact absurd rfl hne | exact absurd h (by decide) | exact absurd hb (by decide)
  case denied | aborted => exact absurd h List.not_mem_nil
  all_goals decide

theorem initialState_approved {decision : RuntimeDecision} {configured : Bool}
    (h : initialState decision configured = .approved) : decision = .allow ∧ configured = false := by
  cases decision <;> cases configured <;> first | exact ⟨rfl, rfl⟩ | cases h

section Gate

variable {py : Platform} {order : Option RowOrder} {tr : List Record} {w : World} {p : String}
  {t : ℕ} {c : Call} {s : Step}

/-- A pathway that passed the gate has passed it for good. -/
theorem Gated.kept (h : Gated py tr w p) (hj : Justified py c (own t tr) s)
    (ha : s.Answers py order w) : Gated py (⟨t, c, w, s⟩ :: tr) (s.effect w) p := by
  rcases h with ⟨x, hx, y, hy, h⟩ | ⟨d, a, e, hd, haa, hne, he, hty, hactor, x, hx, h⟩
  · exact .inl ⟨x, List.mem_cons_of_mem _ hx, y, List.mem_cons_of_mem _ hy, h⟩
  · exact .inr ⟨d, a, e, definition_kept hj ha hd, haa, hne, s.log_kept he, hty, hactor, x,
      List.mem_cons_of_mem _ hx, h⟩

/-- A commit to `APPROVED` is made by the approval authority. -/
theorem Commits.approved (h : Reach py order tr w) {cur : PathwayState} {e : EvidenceEvent}
    (hj : Commits py c (own t tr) p cur .approved e) :
    ∃ d a, w.definitionJson p = some (PathwayDefinition.toDict d) ∧ d.approvalAuthority = some a ∧
      a ≠ "" ∧ e.eventType = "state_transition" ∧ strip e.actor = a := by
  generalize htarget : PathwayState.approved = target at hj
  cases hj with
  | @requested _ _ _ _ d mid _ hc hrun hcheck hseal =>
    subst htarget
    obtain ⟨hmid, -, hauth⟩ := hcheck
    obtain ⟨a, haa, hne, hactor⟩ := authorizeTransition_approved hauth
    obtain ⟨u, hown⟩ := hseal.previous
    refine ⟨d, a, definition_own h (t := t) ?_, haa, hne, hseal.fields.2.1, ?_⟩
    · rw [hown, hmid]
      simp
    · rw [hseal.fields.2.2.1, hactor]
  | moved hc hmove =>
    subst htarget
    rcases hmove.target_cases with h | h | h <;> cases h
  | started => cases htarget
  | late hc hres hr =>
    subst htarget
    rcases ExecutionResult.finalTarget_cases hr with ⟨h, -⟩ | ⟨h, -⟩ <;> cases h
  | reconciled =>
    unfold ExecutionResult.reconciledTarget at htarget
    split_ifs at htarget
  | repaired => cases htarget
  | resumed => cases htarget
  | closed => cases htarget

/-- The pathway was read or put in `RUNNING`. -/
inductive SeenRunning (p : String) : Step → Prop
  | read : SeenRunning p (.getState p (.ok .running))
  | entered {cur : PathwayState} {e : EvidenceEvent} :
      SeenRunning p (.transitionWithEvent p cur .running e (.ok ()))

/-- **A pathway in a gated state, or once seen running, has passed the gate.** -/
theorem gated_of_reach (h : Reach py order tr w) :
    (∀ s ∈ gatedStates, w.state p = some s → Gated py tr w p) ∧
      ∀ x ∈ tr, SeenRunning p x.step → Gated py tr w p := by
  induction h using Reach.induct with
  | start => exact ⟨fun _ _ hs => (by cases hs), fun _ hx => (by cases hx)⟩
  | step t c s tr w h ih hj ha h' =>
    obtain ⟨hstate, hseen⟩ := ih
    have hnow : ∀ s' ∈ gatedStates, (s.effect w).state p = some s' →
        Gated py (⟨t, c, w, s⟩ :: tr) (s.effect w) p := by
      intro s' hs' hw'
      have hkeep : ∀ s' ∈ gatedStates, w.state p = some s' →
          Gated py (⟨t, c, w, s⟩ :: tr) (s.effect w) p :=
        fun s' hs' hw => (hstate s' hs' hw).kept hj ha
      cases pathway_cases hj ha p with
      | @created d fp key state state' hd hreg hnew hst hdef =>
        obtain rfl : state = s' := Option.some.inj (hst.symm.trans hw')
        obtain ⟨key', outcome, decision, codes, raw, hc, hown, hread, hinit⟩ := hreg
        have happroved : state = .approved := by
          have : state ∈ [PathwayState.denied, .humanGate, .held, .awaitingApproval, .approved] := by
            rw [hinit]
            cases combine (inspectPathway d).decision decision <;>
              cases d.approvalAuthority.isSome <;> decide
          cases state <;>
            first | rfl | exact absurd hs' (by decide) | exact absurd this (by decide)
        obtain ⟨hallow, hnone⟩ := initialState_approved (hinit.symm.trans happroved)
        obtain ⟨y, hy, hty, hys⟩ := mem_own.mp (by rw [hown]; exact List.mem_cons_self :
          Step.evaluateRpe d outcome ∈ own t tr)
        subst happroved
        exact .inl ⟨_, List.mem_cons_self, y, List.mem_cons_of_mem _ hy, d, fp, key, state', outcome,
          decision, codes, raw, rfl, hd, hty, hys, hread, hallow, by simpa using hnone⟩
      | @committed cur target e hcommit hcur hst hlog =>
        obtain rfl : target = s' := Option.some.inj (hst.symm.trans hw')
        by_cases hne : target = .approved
        · subst hne
          obtain ⟨d, a, hd, haa, hane, hty, hactor⟩ := hcommit.approved h
          refine .inr ⟨d, a, e, definition_kept hj ha hd, haa, hane, ?_, hty, hactor, _,
            List.mem_cons_self, cur, rfl, fun hk => (hcommit.text hk).2⟩
          show e ∈ (w.commit p .approved e).log p
          rw [hlog]
          exact List.mem_cons_self
        · exact hkeep cur (gatedStates_source hcommit.edge.1 hs' hne) hcur
      | appended => exact hkeep s' hs' hw'
      | untouched hst => exact hkeep s' hs' (hst.symm.trans hw')
    refine ⟨hnow, fun x hx hrun => ?_⟩
    rcases List.mem_cons.mp hx with rfl | hx
    · cases s
      case getState q r =>
        cases hrun
        exact (hstate .running (by decide) (World.getState_ok.mp ha.symm)).kept hj ha
      case transitionWithEvent q cur target e r =>
        cases hrun
        refine hnow .running (by decide) ?_
        show (w.commit p .running e).state p = _
        rw [World.state_commit, if_pos rfl, (World.transitionWithEvent_ok ha.symm).1]
        rfl
      all_goals cases hrun
    · exact (hseen x hx hrun).kept hj ha

/-- Before an invocation its call saw the pathway running. -/
theorem Invokes.seenRunning {own : Own} {request : ExecutionRequest} (h : Invokes py c own p request) :
    ∃ s ∈ own, SeenRunning p s := by
  obtain ⟨actor, -, hcleared⟩ := h
  cases hcleared with
  | started => exact ⟨_, List.mem_cons_self, .entered⟩
  | running => exact ⟨_, List.mem_cons_self, .read⟩

end Gate

/-- **The human gate cannot be bypassed**, in any interleaving of calls by any actors, with crashes
between any two operations: a pathway the executor is invoked for was inserted as approved, or its
log has an earlier approval by its approval authority. -/
theorem executor_gated (py : Platform) (order : Option RowOrder) (calls : List (Call × List Oracle))
    (acts : List (Machine.Action Call Oracle)) {newer older : List Record} {e : Record}
    {p x : String} (htr : (interleaved py order calls acts).trace = newer ++ e :: older)
    (hdispatch : e.step.dispatch = some (p, x)) :
    InsertedApproved older p ∨ ApprovedBy py older e.before p := by
  have hreach := interleaved_reach py order calls acts
  rw [htr] at hreach
  obtain ⟨hbefore, hj⟩ := hreach.of_append
  obtain ⟨request, r, hstep, -⟩ := Step.dispatch_eq_some hdispatch
  rw [hstep] at hj
  obtain ⟨s, hs, hrun⟩ := Invokes.seenRunning hj
  obtain ⟨x, hx, -, rfl⟩ := mem_own.mp hs
  exact (gated_of_reach hbefore).2 x hx hrun

/-- Two executions of one attempt of an approved pathway, in turn: both invoke the executor. -/
def executionRace : List (Machine.Action Call Oracle) :=
  .invoke ⟨.default, .execute "p" requestA "executor"⟩ ::
    .invoke ⟨.default, .execute "p" requestA "executor"⟩ :: inTurn 2 3 16

theorem executor_gated_approved : ∃ newer e older, (interleaved .sample none approvalCalls executionRace).trace =
    newer ++ e :: older ∧ e.step.dispatch = some ("p", "a") ∧
      (InsertedApproved older "p" ∨ ApprovedBy .sample older e.before "p") := by
  have hd : ("p", "a") ∈ dispatches (interleaved .sample none approvalCalls executionRace).trace := by
    decide +kernel
  obtain ⟨newer, e, older, htr, hstep⟩ := dispatches_split hd
  exact ⟨newer, e, older, htr, hstep, executor_gated .sample none approvalCalls executionRace htr hstep⟩

/-! ## Declared authority -/

section Authorized

variable {py : Platform} {policy : RedactionPolicy} {p : String} {request : ExecutionRequest}
  {actor : String} {own : Own}

/-- The call read a definition that gives its actor the right to execute. -/
def MayExecute (p actor : String) (own : Own) : Prop :=
  ∃ d : PathwayDefinition, Step.getDefinition p (.ok d) ∈ own ∧ strip actor = d.executionActor

theorem MayExecute.cons (h : MayExecute p actor own) (s : Step) : MayExecute p actor (s :: own) :=
  h.imp fun _ hd => ⟨List.mem_cons_of_mem _ hd.1, hd.2⟩

theorem Admitted.mayExecute (h : Admitted p request actor own) : MayExecute p actor own := by
  cases h with
  | idle hauth => exact ⟨_, by simp, (authorizeExecutionAccess_ok hauth).1⟩
  | running hauth => exact ⟨_, by simp, (authorizeExecutionAccess_ok hauth).1⟩

theorem Recorded.mayExecute {base : Own} (hown : Recorded p base own) (h : MayExecute p actor base) :
    MayExecute p actor own := by
  obtain ⟨_, _, _, rfl⟩ := hown
  exact ((h.cons _).cons _).cons _

theorem Begun.mayExecute (h : Begun p request actor own) : MayExecute p actor own := by
  cases h with
  | fresh h => exact h.mayExecute.cons _
  | restarted h hrec hown => exact hown.mayExecute ((((h.mayExecute.cons _).cons _).cons _).cons _)

theorem Cleared.mayExecute (h : Cleared py policy p request actor own) : MayExecute p actor own := by
  cases h with
  | started h hstart =>
    obtain ⟨d, mid, ⟨rfl, -, -⟩, hseal⟩ := hstart
    obtain ⟨t, rfl⟩ := hseal.previous
    exact (((((h.mayExecute.cons _).cons _).cons _).cons _).cons _).cons _
  | running h => exact h.mayExecute.cons _

theorem Dispatched.mayExecute {result : ExecutionResult}
    (h : Dispatched py policy p request actor result own) : MayExecute p actor own := by
  obtain ⟨h⟩ := h
  exact h.mayExecute.cons _

theorem Resolved.mayExecute {result : ExecutionResult}
    (h : Resolved py policy p request actor result own) : MayExecute p actor own := by
  cases h with
  | replayed h => exact h.mayExecute.cons _
  | settled h hp hown => exact hown.mayExecute (h.mayExecute.cons _)

theorem LateBase.mem {result : ExecutionResult} {mid : Own} (h : LateBase p result own mid)
    {s : Step} (hs : s ∈ own) : s ∈ mid := by
  cases h with
  | completed => exact List.mem_cons_of_mem _ hs
  | failed => exact List.mem_cons_of_mem _ (List.mem_cons_of_mem _ hs)

/-- The call read a definition that gives its actor the right to reconcile. -/
def MayReconcile (p actor : String) (own : Own) : Prop :=
  ∃ d : PathwayDefinition, Step.getDefinition p (.ok d) ∈ own ∧
    (strip actor = d.repairOwner ∨ strip actor = d.evidenceOwner)

theorem ReconcileAdmitted.mayReconcile (h : ReconcileAdmitted p actor own) :
    MayReconcile p actor own := by
  obtain ⟨hauth, -⟩ := h
  exact ⟨_, by simp, (authorizeReconciliationAccess_ok hauth).1⟩

theorem MayReconcile.cons (h : MayReconcile p actor own) (s : Step) :
    MayReconcile p actor (s :: own) :=
  h.imp fun _ hd => ⟨List.mem_cons_of_mem _ hd.1, hd.2⟩

theorem Reconciled.mayReconcile {result : ExecutionResult}
    (h : Reconciled p request actor result own) : MayReconcile p actor own := by
  cases h with
  | replayed h => exact h.mayReconcile.cons _
  | settled h hs hp =>
    obtain ⟨h, -⟩ := h
    exact ((h.mayReconcile.cons _).cons _).cons _

end Authorized

/-- Where a call closes a pathway, its authority is declared: a commit to `DENIED` is asked for by a
holder of the stored definition, and a residual closure is made under a residual owner without
surrounding white space. -/
def ClosesDeclared (e : Record) : Prop :=
  ∀ p d, e.before.definitionJson p = some (PathwayDefinition.toDict d) →
    (∀ cur event actor, e.step = .transitionWithEvent p cur .denied event (.ok ()) →
      e.caller.method.Requests p .denied actor → strip actor ∈ d.holders) ∧
    (∀ cur event actor residuals reason, e.step = .transitionWithEvent p cur .aborted event (.ok ()) →
      e.caller.method = .abortWithResiduals p actor residuals reason →
      strip d.residualOwner = d.residualOwner)

/-- A call that neither denies nor aborts a pathway closes none. -/
theorem closesDeclared_of {e : Record} (hden : ∀ p a, ¬ e.caller.method.Requests p .denied a)
    (habort : ∀ p a f m, e.caller.method ≠ .abortWithResiduals p a f m) : ClosesDeclared e :=
  fun p _ _ => ⟨fun _ _ a _ hreq => absurd hreq (hden p a),
    fun _ _ a f m _ hm => absurd hm (habort p a f m)⟩

section Declared

variable {py : Platform} {order : Option RowOrder} {tr : List Record} {w : World} {p : String}

theorem proposed_notMem (s : PathwayState) : .proposed ∉ allowedTransitions s := by
  cases s <;> decide

/-- No pathway is in `PROPOSED`: `register` never starts there and no edge leads back. -/
theorem state_ne_proposed (h : Reach py order tr w) : w.state p ≠ some .proposed := by
  induction h using Reach.induct with
  | start => exact fun h => by cases h
  | step t c s tr w h ih hj ha h' =>
    cases pathway_cases hj ha p with
    | created hd hreg hnew hst =>
      obtain ⟨_, _, decision, _, _, -, -, -, hinit⟩ := hreg
      refine fun hp => absurd (Option.some.inj (hst.symm.trans hp)) ?_
      rw [hinit]
      unfold initialState
      split <;> try split_ifs
      all_goals decide
    | committed hcommit hcur hst =>
      refine fun hp => absurd hcommit.edge.1 ?_
      rw [Option.some.inj (hst.symm.trans hp)]
      exact proposed_notMem _
    | appended => exact ih
    | untouched hst => rwa [hst]

/-- A plain transition to a target with a rule has a declared actor. -/
theorem holder_of_checked {d : PathwayDefinition} {cur target : PathwayState} {actor : String}
    {base mid : Own} (hcheck : Checked p d cur target actor base mid) (hden : target ≠ .denied)
    (hcur : cur ≠ .proposed) : strip actor ∈ d.holders := by
  obtain ⟨-, hedge, hauth⟩ := hcheck
  refine authorizeTransition_holder hauth (ensureTransition_ok.mp hedge) hden fun htarget => ?_
  have := ensureTransition_ok.mp hedge
  rw [htarget] at this
  cases cur <;> first | exact hcur rfl | exact absurd this (by decide)

/-- **Every commit has a declared actor**, when closures are declared. -/
theorem Commits.holder {t : ℕ} {c : Call} {cur target : PathwayState} {event : EvidenceEvent}
    (h : Reach py order tr w) (hcur : w.state p = some cur)
    (hj : Commits py c (own t tr) p cur target event) {d : PathwayDefinition}
    (hd : w.definitionJson p = some d.toDict)
    (hclose : ClosesDeclared ⟨t, c, w, .transitionWithEvent p cur target event (.ok ())⟩) :
    strip event.actor ∈ d.holders := by
  have hne : cur ≠ .proposed := fun hp => state_ne_proposed h (hp ▸ hcur)
  have hsame : ∀ {d'}, w.definitionJson p = some (PathwayDefinition.toDict d') → d' = d :=
    fun hd' => PathwayDefinition.toDict_injective py (Option.some.inj (hd'.symm.trans hd))
  cases hj with
  | requested hc hrun hcheck hseal =>
    obtain rfl := hsame (checked_stored h hcheck hseal)
    rw [hseal.fields.2.2.1]
    by_cases hden : target = .denied
    · subst hden
      exact (hclose p _ hd).1 cur event _ rfl hc
    · exact holder_of_checked hcheck hden hne
  | moved hc hmove hcheck hseal =>
    obtain rfl := hsame (checked_stored h hcheck hseal)
    rw [hseal.fields.2.2.1]
    refine holder_of_checked hcheck (fun hden => ?_) hne
    rcases hmove.target_cases with h | h | h <;> rw [hden] at h <;> cases h
  | started hc hb hstart =>
    obtain ⟨d', mid, hcheck, hseal⟩ := hstart
    obtain rfl := hsame (checked_stored h hcheck hseal)
    rw [hseal.fields.2.2.1]
    exact holder_of_checked hcheck (by decide) hne
  | late hc hres hr hbase hseal =>
    obtain ⟨d', hread, hactor⟩ := hres.mayExecute
    obtain rfl := hsame (read_stored h (hbase.mem hread) hseal)
    rw [hseal.fields.2.2.1, hactor]
    simp [PathwayDefinition.holders]
  | reconciled hc hres hseal =>
    obtain ⟨d', hread, hactor⟩ := hres.mayReconcile
    obtain rfl := hsame (read_stored h (List.mem_cons_of_mem _ hread) hseal)
    rw [hseal.fields.2.2.1]
    rcases hactor with h | h <;> rw [h] <;> simp [PathwayDefinition.holders]
  | repaired hc hrec hcheck hseal =>
    obtain rfl := hsame (checked_stored h hcheck hseal)
    rw [hseal.fields.2.2.1]
    exact holder_of_checked hcheck (by decide) hne
  | resumed hc hblank hnext hrec hrepair hcheck hseal =>
    obtain rfl := hsame (checked_stored h hcheck hseal)
    rw [hseal.fields.2.2.1]
    exact holder_of_checked hcheck (by decide) hne
  | closed hc hres hactor hedge hseal =>
    obtain rfl := hsame (read_stored h List.mem_cons_self hseal)
    rw [hseal.fields.2.2.1, hactor.2, (hclose p _ hd).2 cur event _ _ _ rfl hc]
    simp [PathwayDefinition.holders]

/-- Every state change of a reachable history has a declared actor. -/
theorem holders_of_reach (h : Reach py order tr w) (hclose : ∀ e ∈ tr, ClosesDeclared e)
    {d : PathwayDefinition} (hd : w.definitionJson p = some d.toDict) :
    ∀ event ∈ w.log p, event.carriesEdge = true → strip event.actor ∈ d.holders := by
  induction h using Reach.induct with
  | start => cases hd
  | step t c s tr w h ih hj ha h' =>
    have ih := ih fun e he => hclose e (List.mem_cons_of_mem _ he)
    have hkept := hclose ⟨t, c, w, s⟩ List.mem_cons_self
    cases pathway_cases hj ha p with
    | @created d' fp key state state' hd' hreg hnew hst hdef =>
      show ∀ event ∈ w.log p, _
      rw [log_unregistered h hnew]
      exact fun event he => absurd he List.not_mem_nil
    | @committed cur target e hcommit hcur hst hlog =>
      rw [show (Step.effect (.transitionWithEvent p cur target e (.ok ())) w).log p = _ from hlog]
      have hd' : w.definitionJson p = some d.toDict :=
        (World.definitionJson_commit _ _ _ _ _).symm.trans hd
      refine List.forall_mem_cons.mpr ⟨fun _ => ?_, ih hd'⟩
      exact hcommit.holder h hcur hd' hkept
    | @appended e happ hp hlog =>
      rw [show (Step.effect (.appendEvent e (.ok ())) w).log p = _ from hlog]
      refine List.forall_mem_cons.mpr ⟨fun hedge => ?_, ih hd⟩
      rw [EvidenceEvent.carriesEdge, happ.absent] at hedge
      simp at hedge
    | untouched hst hdef hlog =>
      rw [hlog]
      exact ih (hdef.symm.trans hd)

end Declared

/-- **Only declared authority changes state**, in every interleaving of calls by any actors whose
closures are declared: every state-changing event of a pathway has a declared holder as its actor. -/
theorem changes_declared (py : Platform) (order : Option RowOrder)
    (calls : List (Call × List Oracle)) (acts : List (Machine.Action Call Oracle))
    (hclose : ∀ e ∈ (interleaved py order calls acts).trace, ClosesDeclared e) {p : String}
    {d : PathwayDefinition}
    (hd : (interleaved py order calls acts).world.getDefinition py p = .ok d) :
    ∀ event ∈ (interleaved py order calls acts).world.log p, event.carriesEdge = true →
      strip event.actor ∈ d.holders :=
  have hreach := interleaved_reach py order calls acts
  holders_of_reach hreach hclose ((getDefinition_stored hreach).mp hd)

theorem changes_declared_approval : ∃ d, (interleaved .sample none awaitingCalls approvalRace).world.getDefinition
    .sample "p" = .ok d ∧ ∀ event ∈ (interleaved .sample none awaitingCalls approvalRace).world.log "p",
      event.carriesEdge = true → strip event.actor ∈ d.holders := by
  have hok : ((interleaved .sample none awaitingCalls approvalRace).world.getDefinition .sample "p").toBool =
      true := by decide +kernel
  cases hd : (interleaved .sample none awaitingCalls approvalRace).world.getDefinition .sample "p" with
  | error e => rw [hd] at hok; cases hok
  | ok d =>
    refine ⟨d, rfl, changes_declared .sample none awaitingCalls approvalRace (fun e he => ?_) hd⟩
    have hcaller := interleaved_callers (P := fun c => (∀ p a, ¬ c.method.Requests p .denied a) ∧
      ∀ p a f m, c.method ≠ .abortWithResiduals p a f m)
      (by simp [awaitingCalls, Method.answered, Method.Requests])
      (by simp [approvalRace, inTurn, Method.Requests]) e he
    exact closesDeclared_of hcaller.1 hcaller.2

/-- A denial of a pathway that awaits approval, by somebody its definition does not name. -/
def strangerDenies : List (Call × List Oracle) :=
  [(Method.register (.sample (some "approver")) "reg").answered {},
    (Method.transition "p" .denied "stranger" "no").answered {}]

/-- **Without the condition an undeclared actor denies a pathway.** -/
theorem stranger_denies : ¬ ∀ (py : Platform) (order : Option RowOrder)
    (calls : List (Call × List Oracle)) (acts : List (Machine.Action Call Oracle)) (p : String)
    (d : PathwayDefinition), (interleaved py order calls acts).world.getDefinition py p = .ok d →
    ∀ event ∈ (interleaved py order calls acts).world.log p, event.carriesEdge = true →
      strip event.actor ∈ d.holders := by
  intro h
  have hrun : ((interleaved .sample none strangerDenies []).world.getDefinition .sample "p").map
      PathwayDefinition.holders = .ok (PathwayDefinition.sample (some "approver")).holders ∧
      ¬ ∀ event ∈ (interleaved .sample none strangerDenies []).world.log "p", event.carriesEdge = true →
        strip event.actor ∈ (PathwayDefinition.sample (some "approver")).holders := by
    decide +kernel
  obtain ⟨hheld, hstranger⟩ := hrun
  cases hd : (interleaved .sample none strangerDenies []).world.getDefinition .sample "p" with
  | error e => rw [hd] at hheld; cases hheld
  | ok d =>
    have hall := h .sample none strangerDenies [] "p" d hd
    rw [hd] at hheld
    rw [show d.holders = _ from Except.ok.inj hheld] at hall
    exact hstranger hall

end Rpr
