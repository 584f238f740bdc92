import PathwayRuntime.Trace.Solo

/-!
# What the methods do alone

* `Leaves`: where a method returns and where it raises.
* `Reaches`: a pathway put in a state, unless it is there already.
* `FinishAccepted`, `solo_finishExecutionPathway`; `ReconcileAccepted`,
  `solo_finishReconciliationPathway`: how an outcome moves its pathway, and what that needs.
* `solo_admitExecution`, `solo_enterRunning`, `solo_settle`, `solo_dispatch`, `solo_restartAttempt`,
  `solo_replayUnresolved`: the parts of `execute`.
* **`solo_execute`**: how `execute` returns and, on an `APPROVED` pathway, how it raises.
-/

set_option autoImplicit false

namespace Rpr

open Resume

/-- A value is returned in `R`, an error is raised in `E`. -/
def Leaves {α : Type} (R : α → World → Prop) (E : World → Prop) : Except PyError α → World → Prop
  | .ok a, w => R a w
  | .error _, w => E w

/-- The pathway is put in a state, unless it is there already. -/
inductive Reaches (p : String) (target : PathwayState) (w : World) : World → Prop
  | there (hs : w.state p = some target) : Reaches p target w w
  | moved {cur : PathwayState} {event : EvidenceEvent} (hs : w.state p = some cur)
      (he : event.pathwayId = p) : Reaches p target w (w.commit p target event)

theorem Reaches.state {p : String} {target : PathwayState} {w w' : World} (h : Reaches p target w w') :
    w'.state p = some target := by
  cases h with
  | there hs => exact hs
  | moved hs =>
    rw [World.state_commit, if_pos rfl, hs]
    rfl

theorem Reaches.attempts {p : String} {target : PathwayState} {w w' : World}
    (h : Reaches p target w w') : w'.attempts = w.attempts := by
  cases h with
  | there => rfl
  | moved => exact World.attempts_commit _ _ _ _

/-- Where the end of an execution with this result leads. -/
def ExecutionResult.pathwayTarget (r : ExecutionResult) : PathwayState :=
  match r.finalTarget with
  | none => .writeStatusUnknown
  | some (target, _) => target

section Methods

variable {py : Platform} {order : Option RowOrder} {A : Step → Prop} {G : World → Step → Prop}
  {policy : RedactionPolicy} {w : World} {p actor : String} {request : ExecutionRequest}
  {result : ExecutionResult} {cur : PathwayState} {d : PathwayDefinition}

/-! ### The end of an execution -/

variable (py policy d request actor result cur) in
/-- What the end of an execution needs on a pathway in the state `cur`. -/
def FinishAccepted : Prop :=
  match result.finalTarget with
  | none => cur = .writeStatusUnknown ∨ Transits py policy d cur .writeStatusUnknown actor
      (PyText.orElse result.reason "executor_write_status_unknown")
  | some (target, reason) => cur = target ∨
      cur = .running ∧ Transits py policy d .running target
        (if result.status = .failed then d.repairOwner else actor) reason ∨
      cur = .writeStatusUnknown ∧
        Recordable py policy (edgeFields cur target ++ (request.fields ++ result.fields ++ []))

theorem solo_closeUnknown {ty : String} {target : PathwayState} {more : List (String × PyValue)}
    (hs : w.state p = some .writeStatusUnknown)
    (hedge : target ∈ allowedTransitions .writeStatusUnknown) :
    Solo py order A G (Leaves (fun _ w' => Reaches p target w w' ∧ Recordable py policy
        (edgeFields .writeStatusUnknown target ++ (request.fields ++ result.fields ++ more)))
      fun w' => w' = w ∧ ¬ (Recordable py policy (edgeFields .writeStatusUnknown target ++
        (request.fields ++ result.fields ++ more)) ∧ Sound A))
      (closeUnknown py policy p request actor ty .writeStatusUnknown target result more) w := by
  refine solo_ofExcept (fun u _ => ?_) fun e he => ?_
  · rw [← Prog.bind_ret (commit _ _ _ _ _ _ _ _)]
    exact solo_commit hs (fun event hevent => solo_pure
      ⟨.moved hs hevent.pathwayId, hevent.recordable⟩) fun h _ => ⟨rfl, h⟩
  · rw [ensureTransition_ok.mpr hedge] at he
    cases he

/-- The actor of the transition is the repair owner of a failed execution. -/
theorem solo_transitionActor {Q : Except PyError Unit → World → Prop} {f : String → Db Unit}
    (hd : w.getDefinition py p = .ok d)
    (h : Solo py order A G Q (f (if result.status = .failed then d.repairOwner else actor)) w) :
    Solo py order A G Q (if result.status = .failed then
      (do return (← Db.getDefinition p).repairOwner) >>= f else pure actor >>= f) w := by
  by_cases hfailed : result.status = .failed
  · rw [if_pos hfailed] at h ⊢
    simp only [Prog.bind_eq, Prog.bind_assoc, Prog.pure_eq, Prog.bind]
    exact solo_getDefinition_ok hd h
  · rw [if_neg hfailed] at h ⊢
    exact h

theorem solo_finishExecutionPathway (hs : w.state p = some cur) (hd : w.getDefinition py p = .ok d) :
    Solo py order A G (Leaves (fun _ w' => Reaches p result.pathwayTarget w w' ∧
        FinishAccepted py policy actor request result cur d) fun w' => w' = w ∧
      ¬ (FinishAccepted py policy actor request result cur d ∧ Sound A))
      (finishExecutionPathway py policy p request actor result) w := by
  unfold finishExecutionPathway FinishAccepted ExecutionResult.pathwayTarget
  refine solo_getState_some hs ?_
  cases hr : result.finalTarget with
  | none =>
    dsimp only
    split_ifs with hunknown
    · exact solo_pure ⟨.there (hunknown ▸ hs), .inl hunknown⟩
    · refine solo_transition hs hd (fun ht event he => solo_pure ⟨.moved hs he, .inr ht⟩)
        fun h _ => ⟨rfl, fun hacc => ?_⟩
      exact h ⟨hacc.1.resolve_left hunknown, hacc.2⟩
  | some tr =>
    obtain ⟨target, reason⟩ := tr
    dsimp only
    have hedge : target ∈ allowedTransitions .writeStatusUnknown := by
      rcases ExecutionResult.finalTarget_cases hr with ⟨rfl, -⟩ | ⟨rfl, -⟩ <;> decide
    refine solo_transitionActor hd ?_
    by_cases htarget : cur = target
    · rw [if_pos htarget]
      exact solo_pure ⟨.there (htarget ▸ hs), .inl htarget⟩
    · rw [if_neg htarget]
      by_cases hrun : cur = .running
      · rw [if_pos hrun]
        subst hrun
        refine solo_transition hs hd (fun ht event he => solo_pure ⟨.moved hs he, .inr (.inl ⟨rfl, ht⟩)⟩)
          fun h _ => ⟨rfl, fun hacc => ?_⟩
        rcases hacc.1 with hc | ⟨-, ht⟩ | ⟨hc, -⟩
        · exact htarget hc
        · exact h ⟨ht, hacc.2⟩
        · cases hc
      · rw [if_neg hrun]
        by_cases hunknown : cur = .writeStatusUnknown
        · rw [if_neg (not_not.mpr hunknown)]
          subst hunknown
          refine Machine.Ensures.mono (solo_closeUnknown hs hedge) fun x w' hx => ?_
          cases x with
          | ok u => exact ⟨hx.1, .inr (.inr ⟨rfl, hx.2⟩)⟩
          | error e =>
            refine ⟨hx.1, fun hacc => hx.2 ⟨?_, hacc.2⟩⟩
            rcases hacc.1 with hc | ⟨hc, -⟩ | ⟨-, hrec⟩
            · exact absurd hc htarget
            · exact absurd hc hrun
            · exact hrec
        · rw [if_pos hunknown]
          refine solo_raise ⟨rfl, fun hacc => ?_⟩
          rcases hacc.1 with hc | ⟨hc, -⟩ | ⟨hc, -⟩
          · exact htarget hc
          · exact hrun hc
          · exact hunknown hc

/-- Nothing ends an execution on a pathway that is still `APPROVED`. -/
theorem not_finishAccepted_approved : ¬ FinishAccepted py policy actor request result .approved d := by
  intro h
  unfold FinishAccepted at h
  cases hr : result.finalTarget with
  | none =>
    rw [hr] at h
    rcases h with h | h
    · cases h
    · exact absurd h.edge (by decide)
  | some tr =>
    rw [hr] at h
    rcases h with h | ⟨h, -⟩ | ⟨h, -⟩
    · rcases ExecutionResult.finalTarget_cases hr with ⟨ht, -⟩ | ⟨ht, -⟩ <;> rw [ht] at h <;> cases h
    · cases h
    · cases h

/-! ### The beginning of an execution -/

/-- What `execute` checks before it begins the attempt. -/
structure Admits (py : Platform) (w : World) (p : String) (request : ExecutionRequest) (actor : String)
    (d : PathwayDefinition) (s : PathwayState) : Prop where
  definition : w.getDefinition py p = .ok d
  authority : authorizeExecutionAccess d actor = .ok ()
  state : w.state p = some s
  bound : s = .running → activeAttempt (w.log p) = .ok request.attemptId

theorem solo_admitExecution :
    Solo py order A G (Leaves (fun _ w' => w' = w ∧ ∃ d s, Admits py w p request actor d s)
      fun w' => w' = w ∧ ∀ d s, ¬ Admits py w p request actor d s)
      (admitExecution p request actor) w := by
  refine solo_getDefinition (fun d hd => ?_) fun e he => ⟨rfl, fun d s h => ?_⟩
  swap
  · rw [h.definition] at he
    cases he
  have hsame : ∀ d', w.getDefinition py p = .ok d' → d' = d := fun d' hd' =>
    Except.ok.inj (hd'.symm.trans hd)
  refine solo_ofExcept (fun u hauth => ?_) fun e he => ⟨rfl, fun d' s h => ?_⟩
  swap
  · obtain rfl := hsame d' h.definition
    rw [h.authority] at he
    cases he
  refine solo_getState (fun s hs => ?_) fun hnone => ⟨rfl, fun d' s h => ?_⟩
  swap
  · rw [h.state] at hnone
    cases hnone
  have hstate : ∀ s', w.state p = some s' → s' = s := fun s' hs' =>
    Option.some.inj (hs'.symm.trans hs)
  by_cases hrun : s = .running
  · rw [if_pos hrun]
    cases hx : activeAttempt (w.log p) with
    | error e =>
      refine solo_activeRunningAttemptId (fun x hx' => absurd (hx.symm.trans hx') (by simp)) fun e' =>
        ⟨rfl, fun d' s' h => ?_⟩
      have := h.bound (hstate s' h.state ▸ hrun)
      rw [hx] at this
      cases this
    | ok x =>
      refine solo_call (fun _ => rfl) fun _ _ => ?_
      show Solo py order A G _ ((Prog.ofExcept (activeAttempt (w.log p).reverse.reverse)).bind _) w
      rw [List.reverse_reverse, hx]
      show Solo py order A G _ (if x ≠ request.attemptId then _ else _) w
      split_ifs with hne
      · refine solo_raise ⟨rfl, fun d' s' h => hne ?_⟩
        exact Except.ok.inj (hx.symm.trans (h.bound (hstate s' h.state ▸ hrun)))
      · exact solo_pure ⟨rfl, d, s, hd, hauth, hs, fun _ => by rw [hx, not_not.mp hne]⟩
  · rw [if_neg hrun]
    exact solo_pure ⟨rfl, d, s, hd, hauth, hs, fun h => absurd h hrun⟩

/-- The pathway is `RUNNING` when its attempt is cleared; an attempt that is not is discarded. -/
theorem solo_enterRunning (hs : w.state p = some cur) (hd : w.getDefinition py p = .ok d) :
    Solo py order A G (Leaves (fun _ w' => (cur = .running ∧ w' = w) ∨ cur = .approved ∧ ∃ event,
        Built py policy w p "execution_started" actor (edgeFields .approved .running ++
          (request.fields ++ [("reason", .text "execution_started")])) event ∧
        w' = w.commit p .running event)
      fun w' => cur ≠ .running ∧ w' = w.withAttempts (w.attempts.discardStarted request.attemptId).2)
      (enterRunning py policy p request actor) w := by
  refine Machine.ensures_tryCatch.mpr (Machine.Ensures.mono (Q := Leaves
    (fun _ w' => (cur = .running ∧ w' = w) ∨ cur = .approved ∧ ∃ event,
      Built py policy w p "execution_started" actor (edgeFields .approved .running ++
        (request.fields ++ [("reason", .text "execution_started")])) event ∧
      w' = w.commit p .running event) fun w' => cur ≠ .running ∧ w' = w) ?_ fun x w' hx => ?_)
  · refine solo_getState_some hs ?_
    by_cases happroved : cur = .approved
    · rw [if_pos happroved]
      subst happroved
      refine solo_checked hs hd (fun _ _ => ?_) fun _ _ => ⟨by decide, rfl⟩
      rw [← Prog.bind_ret (commit _ _ _ _ _ _ _ _)]
      exact solo_commit hs (fun event hevent => solo_pure (.inr ⟨rfl, event, hevent, rfl⟩))
        fun _ _ => ⟨by decide, rfl⟩
    · rw [if_neg happroved]
      by_cases hrun : cur = .running
      · rw [if_neg (not_not.mpr hrun)]
        exact solo_pure (.inl ⟨hrun, rfl⟩)
      · rw [if_pos hrun]
        exact solo_raise ⟨hrun, rfl⟩
  · cases x with
    | ok u => exact hx
    | error e =>
      obtain ⟨hrun, rfl⟩ := hx
      refine solo_getState_some hs ?_
      rw [if_pos hrun]
      exact solo_discardStarted (solo_raise ⟨hrun, rfl⟩)

/-! ### After the executor -/

variable (py policy p actor request) in
/-- The rest of `dispatch` once the executor has ended. -/
def settle (result : ExecutionResult) : Db ExecutionResult := do
  if ← tryFinish request.attemptId result then
    record py policy p "execution_result" actor (request.fields ++ result.fields)
    finishExecutionPathway py policy p request actor result
    return result
  else
    persistenceUnknown py policy p request actor

variable (py policy p actor request) in
theorem dispatch_eq : dispatch py policy p request actor = (do
    enterRunning py policy p request actor
    let outcome ← Db.invokeExecutor p request
    settle py policy p actor request outcome.result) := rfl

/-- A guarantee on the events `execution_replay_unresolved` only. -/
def Lenient (G : World → Step → Prop) : Prop :=
  ∀ w event, event.eventType ≠ "execution_replay_unresolved" → G w (.appendEvent event (.ok ()))

theorem Lenient.built {ty : String} {payload : List (String × PyValue)} (hG : Lenient G)
    (hty : ty ≠ "execution_replay_unresolved") {event : EvidenceEvent}
    (h : Built py policy w p ty actor payload event) : G w (.appendEvent event (.ok ())) := by
  obtain ⟨base, own, hseal⟩ := h.sealed
  exact hG w event (hseal.fields.2.1 ▸ hty)

theorem solo_persistenceUnknown (hG : Lenient G) (hs : w.state p = some cur)
    (hd : w.getDefinition py p = .ok d) :
    Solo py order A G (Leaves (fun r w' => r.status = .writeStatusUnknown ∧
        w'.state p = some .writeStatusUnknown) fun w' => w'.state p = some cur)
      (persistenceUnknown py policy p request actor) w := by
  unfold persistenceUnknown
  refine solo_tryMarkUnknown fun failure _ => ?_
  refine solo_record (fun event he => hG.built (by decide) he) (fun event he => ?_) fun _ _ => hs
  refine solo_transition (w := World.push _ event) hs hd (fun ht event' he' => ?_) fun _ _ => hs
  refine solo_pure ⟨rfl, ?_⟩
  rw [World.state_commit, if_pos rfl, World.state_push, World.state_withAttempts, hs]
  rfl

/-- What the rest of a dispatch leads to, on a pathway in the state `cur`. -/
theorem solo_settle (hG : Lenient G) (hs : w.state p = some cur)
    (hd : w.getDefinition py p = .ok d)
    (hrow : ∃ row, w.attempts.lookup request.attemptId = some row) :
    Solo py order A G (Leaves (fun r w' => w'.state p = some r.pathwayTarget ∧
        ((r = result ∧ Recordable py policy (request.fields ++ result.fields) ∧
          FinishAccepted py policy actor request result cur d) ∨
        (r.status = .writeStatusUnknown ∧ ∃ e, persistResult result = .error e)))
      fun w' => w'.state p = some cur ∧ ∀ res, persistResult result = .ok res →
        ¬ (Recordable py policy (request.fields ++ result.fields) ∧
          FinishAccepted py policy actor request result cur d ∧ Sound A))
      (settle py policy p actor request result) w := by
  unfold settle
  refine solo_tryFinish (fun row res hlook hres => ?_) (fun message hres => ?_) fun h e => ?_
  · refine solo_record (fun event he => hG.built (by decide) he) (fun event he => ?_) fun h e => ?_
    · refine solo_seq (solo_finishExecutionPathway hs hd) (fun u w' h => ?_) fun e w' h => ?_
      · exact solo_pure ⟨h.1.state, .inl ⟨rfl, he.recordable, h.2⟩⟩
      · exact ⟨h.1 ▸ hs, fun _ _ hacc => h.2 hacc.2⟩
    · exact ⟨hs, fun _ _ hacc => h ⟨hacc.1, hacc.2.2⟩⟩
  · refine Machine.Ensures.mono (solo_persistenceUnknown hG hs hd) fun x w' hx => ?_
    cases x with
    | ok r =>
      have htarget : r.pathwayTarget = .writeStatusUnknown := by
        simp [ExecutionResult.pathwayTarget, ExecutionResult.finalTarget, hx.1]
      exact ⟨htarget ▸ hx.2, .inr ⟨hx.1, _, hres⟩⟩
    | error e => exact ⟨hx, fun res hok => absurd (hres.symm.trans hok) (by simp)⟩
  · refine ⟨hs, fun res hok => ?_⟩
    obtain ⟨row, hlook⟩ := hrow
    rcases h with hnone | ⟨e, he, -⟩
    · exact absurd (hnone.symm.trans hlook) (by simp)
    · exact absurd (he.symm.trans hok) (by simp)

theorem World.getDefinition_commit (w : World) (p q : String) (s : PathwayState) (e : EvidenceEvent) :
    (w.commit p s e).getDefinition py q = w.getDefinition py q := by
  unfold World.getDefinition
  rw [World.definitionJson_commit]

variable (py policy actor request) in
/-- How a dispatch of a fresh attempt ends after its executor: with the result or the fallback, and
where it leads. -/
def Dispatches (d : PathwayDefinition) (outcome : ExecutorOutcome) (r : ExecutionResult) : Prop :=
  (r = outcome.result ∧ Recordable py policy (request.fields ++ outcome.result.fields) ∧
    FinishAccepted py policy actor request outcome.result .running d) ∨
  (r.status = .writeStatusUnknown ∧ ∃ e, persistResult outcome.result = .error e)

/-- A dispatch of an attempt that has a row. -/
theorem solo_dispatch (hG : Lenient G)
    (hinvoke : ∀ w' outcome, w'.state p = some .running → w'.attempts = w.attempts →
      G w' (.invokeExecutor p request outcome))
    (hs : w.state p = some cur) (hd : w.getDefinition py p = .ok d)
    (hrow : ∃ row, w.attempts.lookup request.attemptId = some row) :
    Solo py order A G (Leaves (fun r w' => w'.state p = some r.pathwayTarget ∧
        ∃ outcome, A (.invokeExecutor p request outcome) ∧
          Dispatches py policy actor request d outcome r)
      fun w' => (cur ≠ .running ∧ w'.state p = some cur) ∨ w'.state p = some .running ∧
        ∃ outcome, A (.invokeExecutor p request outcome) ∧
          ∀ res, persistResult outcome.result = .ok res →
            ¬ (Recordable py policy (request.fields ++ outcome.result.fields) ∧
              FinishAccepted py policy actor request outcome.result .running d ∧ Sound A))
      (dispatch py policy p request actor) w := by
  rw [dispatch_eq]
  refine solo_seq (solo_enterRunning hs hd) (fun u w₁ h => ?_) fun e w' h => .inl ⟨h.1, ?_⟩
  · have hw₁ : w₁.state p = some .running ∧ w₁.getDefinition py p = .ok d ∧
        w₁.attempts = w.attempts := by
      rcases h with ⟨rfl, rfl⟩ | ⟨rfl, event, he, rfl⟩
      · exact ⟨hs, hd, rfl⟩
      · exact ⟨(Reaches.moved hs he.pathwayId).state, (World.getDefinition_commit _ _ _ _ _).trans hd,
          World.attempts_commit _ _ _ _⟩
    obtain ⟨hrun, hd₁, hattempts⟩ := hw₁
    rw [← hattempts] at hrow
    refine solo_invokeExecutor fun outcome ha => ⟨hinvoke w₁ outcome hrun hattempts, ?_⟩
    refine Machine.Ensures.mono (solo_settle hG hrun hd₁ hrow) fun x w' hx => ?_
    cases x with
    | ok r => exact ⟨hx.1, outcome, ha, hx.2⟩
    | error e => exact .inr ⟨hx.1, outcome, ha, hx.2⟩
  · rw [h.2]
    exact hs

/-! ### The whole of `execute` -/

/-- A started row is discarded and begun again; the pathway stays as it was. -/
theorem solo_restartAttempt (hG : Lenient G) :
    Solo py order A G (Leaves (fun _ w' => w'.state p = w.state p ∧
        w'.getDefinition py p = w.getDefinition py p ∧
        ∃ fp, fingerprint py request = .ok fp ∧
          w'.attempts.lookup request.attemptId = some (Ledger.startedRow p request fp))
      fun w' => w'.state p = w.state p)
      (restartAttempt py policy p request actor) w := by
  unfold restartAttempt
  refine solo_discardStarted ?_
  by_cases hdiscard : (w.attempts.discardStarted request.attemptId).1 = true
  · rw [if_neg (by simp [hdiscard])]
    refine solo_begin (fun ord fp rec _ hfp hbegin => ?_) (fun ord fp rec _ _ hbegin _ => ?_) fun _ _ => rfl
    · dsimp only
      rw [if_neg (by decide), ← Prog.bind_ret (record _ _ _ _ _ _)]
      refine solo_record (fun event he => hG.built (by decide) he) (fun event he => ?_) fun _ _ => rfl
      exact solo_pure ⟨rfl, rfl, fp, hfp, AList.lookup_insert _⟩
    · exact solo_raise rfl
  · rw [if_pos (by simp [hdiscard])]
    exact solo_raise rfl

/-- A started row on a pathway that is not `APPROVED`: the attempt stays unknown. -/
theorem solo_replayUnresolved (hG : ∀ w event, G w (.appendEvent event (.ok ())))
    (hs : w.state p = some cur) (hd : w.getDefinition py p = .ok d) :
    Solo py order A G (Leaves (fun r _ => r.status = .writeStatusUnknown) fun _ => True)
      (replayUnresolved py policy p request actor cur) w := by
  unfold replayUnresolved
  dsimp only
  by_cases hrun : cur = .running
  · rw [if_pos hrun]
    refine solo_transition hs hd (fun ht event he => ?_) fun _ _ => trivial
    exact solo_record (fun event' _ => hG _ event') (fun event' _ => solo_pure rfl) fun _ _ => trivial
  · rw [if_neg hrun]
    exact solo_record (fun event' _ => hG _ event') (fun event' _ => solo_pure rfl) fun _ _ => trivial

/-- How `execute` returns: with a stored result, after a dispatch, or for an attempt that stays
unknown. -/
inductive Executes (py : Platform) (A : Step → Prop) (policy : RedactionPolicy) (w : World)
    (p : String) (request : ExecutionRequest) (actor : String) (r : ExecutionResult) (w' : World) : Prop
  | replayed {d : PathwayDefinition} {s : PathwayState} {x : String} {row : AttemptRow}
      {stored : PersistedResult} (h : Admits py w p request actor d s)
      (hrow : w.attempts.lookup x = some row) (hout : row.outcome = some stored)
      (hr : resultFromAttempt stored.json = .ok r) (hfin : FinishAccepted py policy actor request r s d)
      (hstate : w'.state p = some r.pathwayTarget) : Executes py A policy w p request actor r w'
  | dispatched {d : PathwayDefinition} {s : PathwayState} {outcome : ExecutorOutcome}
      (h : Admits py w p request actor d s) (ha : A (.invokeExecutor p request outcome))
      (hr : Dispatches py policy actor request d outcome r)
      (hstate : w'.state p = some r.pathwayTarget) : Executes py A policy w p request actor r w'
  | unresolved {d : PathwayDefinition} {s : PathwayState} (h : Admits py w p request actor d s)
      (hs : s ≠ .approved) (hr : r.status = .writeStatusUnknown) :
      Executes py A policy w p request actor r w'

/-- How `execute` raises on an `APPROVED` pathway: before it was running, or after the executor. -/
inductive Fails (py : Platform) (A : Step → Prop) (policy : RedactionPolicy) (w : World) (p : String)
    (request : ExecutionRequest) (actor : String) (w' : World) : Prop
  | early (hs : w'.state p = some .approved) : Fails py A policy w p request actor w'
  | late {d : PathwayDefinition} {outcome : ExecutorOutcome} (h : Admits py w p request actor d .approved)
      (ha : A (.invokeExecutor p request outcome))
      (hr : ∀ res, persistResult outcome.result = .ok res →
        ¬ (Recordable py policy (request.fields ++ outcome.result.fields) ∧
          FinishAccepted py policy actor request outcome.result .running d ∧ Sound A))
      (hs : w'.state p = some .running) : Fails py A policy w p request actor w'

/-- **`execute` alone.** -/
theorem solo_execute : Solo py order A (fun _ _ => True)
    (Leaves (Executes py A policy w p request actor)
      fun w' => w.state p = some .approved → Fails py A policy w p request actor w')
    (execute py policy p request actor) w := by
  have hG : Lenient fun _ _ => True := fun _ _ _ => trivial
  unfold execute
  refine solo_seq solo_admitExecution (fun u w₀ h => ?_) fun e w' h happroved => ?_
  swap
  · exact .early (h.1 ▸ happroved)
  obtain ⟨rfl, d, s, hadm⟩ := h
  -- A dispatch on a pathway that is still in the state that was read.
  have hdispatch : ∀ w₁ : World, w₁.state p = w₀.state p → w₁.getDefinition py p = w₀.getDefinition py p →
      (∃ row, w₁.attempts.lookup request.attemptId = some row) →
      Solo py order A (fun _ _ => True) (Leaves (Executes py A policy w₀ p request actor)
        fun w' => w₀.state p = some .approved → Fails py A policy w₀ p request actor w')
        (dispatch py policy p request actor) w₁ := by
    intro w₁ hs hd hrow
    refine Machine.Ensures.mono (solo_dispatch hG (fun _ _ _ _ => trivial) (hs.trans hadm.state)
      (hd.trans hadm.definition) hrow) fun x w' hx => ?_
    cases x with
    | ok r =>
      obtain ⟨hstate, outcome, ha, hr⟩ := hx
      exact .dispatched hadm ha hr hstate
    | error e =>
      intro happroved
      obtain rfl := Option.some.inj (hadm.state.symm.trans happroved)
      rcases hx with ⟨-, hs'⟩ | ⟨hrun, outcome, ha, hr⟩
      · exact .early hs'
      · exact .late hadm ha hr hrun
  refine solo_begin (fun ord fp rec _ _ hbegin => ?_) (fun ord fp rec _ _ hbegin _ => ?_)
    fun _ _ => .early
  · exact hdispatch _ rfl rfl ⟨_, AList.lookup_insert _⟩
  · have hrow := Ledger.matching_eq_some (Ledger.begin_replayed hbegin).1
    dsimp only
    rw [if_neg (by decide)]
    cases hout : rec.outcome with
    | some stored =>
      refine solo_ofExcept (fun r hr => ?_) fun e _ => .early
      refine solo_seq (solo_finishExecutionPathway hadm.state hadm.definition)
        (fun u w' h => ?_) fun e w' h happroved => .early (h.1 ▸ happroved)
      exact solo_pure (.replayed hadm hrow hout hr h.2 h.1.state)
    | none =>
      refine solo_getState_some hadm.state ?_
      by_cases happroved : s = .approved
      · rw [if_pos happroved]
        refine solo_seq (solo_restartAttempt hG) (fun u w' h => ?_) fun e w' h hs => .early (h ▸ hs)
        obtain ⟨hs', hd', fp, -, hrow'⟩ := h
        exact hdispatch w' hs' hd' ⟨_, hrow'⟩
      · rw [if_neg happroved]
        refine Machine.Ensures.mono (solo_replayUnresolved (fun _ _ => trivial) hadm.state
          hadm.definition) fun x w' hx => ?_
        cases x with
        | ok r => exact .unresolved hadm happroved hx
        | error e => exact fun hs => absurd (Option.some.inj (hadm.state.symm.trans hs)) happroved

/-! ### The whole of `reconcile` -/

variable (py policy request) in
/-- What the end of a reconciliation needs on a pathway in the state `cur`. -/
def ReconcileAccepted (result : ExecutionResult) (replayed : Bool) (cur : PathwayState) : Prop :=
  cur = result.reconciledTarget ∨ cur = .writeStatusUnknown ∧
    Recordable py policy (edgeFields cur result.reconciledTarget ++
      (request.fields ++ result.fields ++ [("replayed", .bool replayed)]))

theorem solo_finishReconciliationPathway {replayed : Bool} (hs : w.state p = some cur) :
    Solo py order A G (Leaves (fun _ w' => Reaches p result.reconciledTarget w w' ∧
        ReconcileAccepted py policy request result replayed cur) fun w' => w' = w ∧
      ¬ (ReconcileAccepted py policy request result replayed cur ∧ Sound A))
      (finishReconciliationPathway py policy p request actor result replayed) w := by
  unfold finishReconciliationPathway ReconcileAccepted
  refine solo_getState_some hs ?_
  have htarget : (if result.status = .succeeded then PathwayState.completed else .repairRequired) =
      result.reconciledTarget := rfl
  dsimp only
  rw [htarget]
  by_cases hthere : cur = result.reconciledTarget
  · rw [if_pos hthere]
    exact solo_pure ⟨.there (hthere ▸ hs), .inl hthere⟩
  · rw [if_neg hthere]
    by_cases hunknown : cur = .writeStatusUnknown
    · rw [if_neg (not_not.mpr hunknown)]
      subst hunknown
      have hedge : result.reconciledTarget ∈ allowedTransitions .writeStatusUnknown := by
        unfold ExecutionResult.reconciledTarget
        split_ifs <;> decide
      refine Machine.Ensures.mono (solo_closeUnknown hs hedge) fun x w' hx => ?_
      cases x with
      | ok u => exact ⟨hx.1, .inr ⟨rfl, hx.2⟩⟩
      | error e =>
        exact ⟨hx.1, fun hacc => hx.2 ⟨(hacc.1.resolve_left hthere).2, hacc.2⟩⟩
    · rw [if_pos hunknown]
      exact solo_raise ⟨rfl, fun hacc => hunknown (hacc.1.resolve_left hthere).1⟩

/-- What `reconcile` checks before it begins the attempt. -/
structure ReconcileAdmits (py : Platform) (w : World) (p actor : String) (s : PathwayState) : Prop where
  authority : ∃ d, w.getDefinition py p = .ok d ∧ authorizeReconciliationAccess d actor = .ok ()
  state : w.state p = some s
  reconcilable : s ∈ reconcilableStates

theorem solo_admitReconciliation :
    Solo py order A G (Leaves (fun _ w' => w' = w ∧ ∃ s, ReconcileAdmits py w p actor s)
      fun w' => w' = w ∧ ∀ s, ¬ ReconcileAdmits py w p actor s) (admitReconciliation p actor) w := by
  unfold admitReconciliation
  refine solo_getDefinition (fun d hd => ?_) fun e he => ⟨rfl, fun s h => ?_⟩
  swap
  · obtain ⟨d, hd, -⟩ := h.authority
    exact absurd (hd.symm.trans he) (by simp)
  refine solo_ofExcept (fun u hauth => ?_) fun e he => ⟨rfl, fun s h => ?_⟩
  swap
  · obtain ⟨d', hd', hauth⟩ := h.authority
    obtain rfl := Except.ok.inj (hd.symm.trans hd')
    exact absurd (hauth.symm.trans he) (by simp)
  refine solo_getState (fun s hs => ?_) fun hnone => ⟨rfl, fun s h => ?_⟩
  swap
  · exact absurd (hnone.symm.trans h.state) (by simp)
  by_cases hmem : s ∈ reconcilableStates
  · rw [if_neg (not_not.mpr hmem)]
    exact solo_pure ⟨rfl, s, ⟨d, hd, hauth⟩, hs, hmem⟩
  · rw [if_pos hmem]
    refine solo_raise ⟨rfl, fun s' h => hmem ?_⟩
    obtain rfl := Option.some.inj (hs.symm.trans h.state)
    exact h.reconcilable

end Methods

end Rpr
