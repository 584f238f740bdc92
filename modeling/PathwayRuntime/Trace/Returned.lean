import PathwayRuntime.Python.Exception
import PathwayRuntime.Resume.Threads
import PathwayRuntime.Trace.Methods

/-!
# What a call that returned has done

* `weighty`: the steps of a call on the ledger and on outside parties.
* `Light`: a program without such steps.
* `ExecuteSteps`, `ReconcileSteps`: the steps of an `execute` and of a `reconcile` that returned this.
* **`executed_steps`**, **`reconciled_steps`**: in every interleaving.
-/

set_option autoImplicit false

namespace Rpr

open Resume

/-- A step on the ledger, or of an outside party. -/
def Step.weighty : Step → Bool
  | .begin .. | .finish .. | .discardStarted .. | .invokeExecutor .. | .observe .. => true
  | _ => false

/-- The weighty ones of the steps. -/
def weighty (own : Own) : Own := own.filter Step.weighty

theorem mem_weighty {own : Own} {s : Step} : s ∈ weighty own ↔ s ∈ own ∧ s.weighty = true := List.mem_filter

section Rules

variable {α β : Type} {R : α → Own → Prop} {own kept : Own}

/-- A value is only returned after weighty steps that satisfy `R`. -/
def Returns (R : α → Own → Prop) (p : Db α) (own : Own) : Prop :=
  Prog.Traced label (fun _ _ => True) (Ends (fun a own' => R a (weighty own')) Anyhow) p own

theorem returns_pure {a : α} (h : R a (weighty own)) : Returns R (pure a) own := h

theorem returns_raise {e : PyError} : Returns R (.raise e) own := trivial

theorem returns_seq {R' : β → Own → Prop} {q : Db β} {f : β → Db α} (h : Returns R' q own)
    (hf : ∀ b own', R' b (weighty own') → Returns R (f b) own') : Returns R (q >>= f) own :=
  Prog.Traced.bind h hf fun _ _ _ => trivial

theorem returns_ofExcept {x : Except PyError β} {f : β → Db α} (hf : ∀ b, x = .ok b → Returns R (f b) own) :
    Returns R (Prog.ofExcept x >>= f) own := by
  cases x with
  | ok b => exact hf b rfl
  | error e => exact trivial

theorem returns_call {op : Op} {k : Res op → Db α} (h : ∀ r, Returns R (k r) (label op r :: own)) :
    Returns R (.call op k) own :=
  fun r => ⟨trivial, h r⟩

/-- No step of the program is weighty. -/
def Light (p : Db α) : Prop := ∀ own, Returns (fun _ kept => kept = weighty own) p own

theorem Light.seq {q : Db β} {f : β → Db α} (h : Light q)
    (hf : ∀ b own', weighty own' = weighty own → Returns R (f b) own') : Returns R (q >>= f) own :=
  returns_seq (h own) hf

theorem light_pure (a : α) : Light (pure a) := fun _ => rfl

theorem light_raise (e : PyError) : Light (.raise e : Db α) := fun _ => trivial

theorem light_ofExcept (x : Except PyError α) : Light (Prog.ofExcept x) := by
  cases x with
  | ok a => exact light_pure a
  | error e => exact light_raise e

theorem Light.bind {q : Db β} {f : β → Db α} (h : Light q) (hf : ∀ b, Light (f b)) : Light (q >>= f) :=
  fun own => h.seq fun b own' hown => by
    have := hf b own'
    rwa [hown] at this

theorem light_call {op : Op} {k : Res op → Db α} (hop : ∀ r, (label op r).weighty = false)
    (hk : ∀ r, Light (k r)) : Light (.call op k) := by
  intro own r
  refine ⟨trivial, ?_⟩
  have hkept : weighty (label op r :: own) = weighty own := List.filter_cons_of_neg (by simp [hop r])
  have := hk r (label op r :: own)
  rwa [hkept] at this

theorem light_ite {P : Prop} [Decidable P] {q q' : Db α} (h : Light q) (h' : Light q') :
    Light (if P then q else q') := by
  split_ifs
  · exact h
  · exact h'

/-! ### Light fragments -/

variable (py : Platform) (policy : RedactionPolicy) (p actor : String) (request : ExecutionRequest)

theorem light_getState : Light (Db.getState p) := light_call (fun _ => rfl) light_ofExcept

theorem light_getDefinition : Light (Db.getDefinition p) := light_call (fun _ => rfl) light_ofExcept

theorem light_buildEvent (ty : String) (payload : List (String × PyValue)) :
    Light (buildEvent py policy p ty actor payload) :=
  light_call (fun _ => rfl) fun _ => (light_ofExcept _).bind fun _ =>
    light_call (fun _ => rfl) fun _ => light_ofExcept _

theorem light_record (ty : String) (payload : List (String × PyValue)) :
    Light (record py policy p ty actor payload) :=
  (light_buildEvent py policy p actor ty payload).bind fun _ => light_call (fun _ => rfl) light_ofExcept

theorem light_commit (ty : String) (cur target : PathwayState) (payload : List (String × PyValue)) :
    Light (commit py policy p ty actor cur target payload) :=
  (light_buildEvent py policy p actor ty _).bind fun _ => light_call (fun _ => rfl) light_ofExcept

theorem light_transition (target : PathwayState) (reason : PyText) :
    Light (transition py policy p target actor reason) :=
  light_ite (light_raise _) ((light_getState p).bind fun _ => (light_getDefinition p).bind fun _ =>
    (light_ofExcept _).bind fun _ => (light_ofExcept _).bind fun _ =>
      (light_commit py policy p actor _ _ _ _).bind fun _ => light_pure target)

theorem light_closeUnknown (ty : String) (cur target : PathwayState) (result : ExecutionResult)
    (more : List (String × PyValue)) :
    Light (closeUnknown py policy p request actor ty cur target result more) :=
  (light_ofExcept _).bind fun _ => light_commit py policy p actor ty cur target _

theorem light_finishExecutionPathway (result : ExecutionResult) :
    Light (finishExecutionPathway py policy p request actor result) := by
  refine (light_getState p).bind fun cur => ?_
  cases result.finalTarget with
  | none => exact light_ite (light_pure ()) ((light_transition py policy p actor _ _).bind fun _ => light_pure ())
  | some tr =>
    -- Whoever the transition is made by.
    have hrest : ∀ mover, Light (if cur = tr.1 then return ()
        else if cur = .running then (do let _ ← transition py policy p tr.1 mover tr.2)
        else if cur ≠ .writeStatusUnknown then
          Prog.raise (.valueError ("persisted execution result conflicts with pathway state " ++ cur.value))
        else closeUnknown py policy p request actor "execution_result_after_concurrent_unknown" cur tr.1
          result [] : Db Unit) := fun mover =>
      light_ite (light_pure ()) (light_ite ((light_transition py policy p mover _ _).bind fun _ => light_pure ())
        (light_ite (light_raise _) (light_closeUnknown py policy p actor request _ _ _ _ _)))
    exact light_ite (((light_getDefinition p).bind fun _ => light_pure _).bind hrest) (hrest actor)

theorem light_finishReconciliationPathway (result : ExecutionResult) (replayed : Bool) :
    Light (finishReconciliationPathway py policy p request actor result replayed) :=
  (light_getState p).bind fun _ => light_ite (light_pure ()) (light_ite (light_raise _)
    (light_closeUnknown py policy p actor request _ _ _ _ _))

theorem light_startExecutionPathway : Light (startExecutionPathway py policy p request actor) :=
  (light_getState p).bind fun _ => (light_getDefinition p).bind fun _ => (light_ofExcept _).bind
    fun _ => (light_ofExcept _).bind fun _ => light_commit py policy p actor _ _ _ _

end Rules

/-! ## Weighty steps -/

section Weighty

variable {py : Platform} {policy : RedactionPolicy} {p actor : String} {request : ExecutionRequest}
  {α : Type} {R : α → Own → Prop} {own : Own}

theorem returns_begin {f : Bool × ExecutionAttemptRecord → Db α}
    (h : ∀ fp r, fingerprint py request = .ok fp → Returns R (f r) (.begin p request fp (.ok r) :: own)) :
    Returns R (begin py p request >>= f) own := by
  have hassoc : begin py p request >>= f = Prog.ofExcept (fingerprint py request) >>= fun fp =>
      (Prog.call (.begin p request fp) Prog.ofExcept : Db _) >>= f := by
    simp only [begin, Prog.bind_eq, Prog.bind_assoc]
  rw [hassoc]
  refine returns_ofExcept fun fp hfp => returns_call fun r => ?_
  cases r with
  | ok r => exact h fp r hfp
  | error e => exact trivial

/-- The result is stored, or the ledger rejects it before it is asked. -/
theorem returns_tryFinish {f : Bool → Db α} {x : String} {result : ExecutionResult}
    (hok : ∀ res fin, persistResult result = .ok res → Returns R (f true) (.finish x res (some fin) :: own))
    (hrejected : Returns R (f false) own) : Returns R (tryFinish x result >>= f) own := by
  unfold tryFinish finish
  cases hres : persistResult result with
  | error e =>
    cases e
    case attemptResultPersistenceError message => exact hrejected
    all_goals exact trivial
  | ok res =>
    refine returns_call fun r => ?_
    cases r with
    | none => exact trivial
    | some fin => exact hok res fin hres

theorem returns_tryMarkUnknown {f : Option String → Db α} {x reason : String}
    (h : ∀ failure reply, (reply.isSome = true → failure = none) →
      Returns R (f failure) (.finish x (unknownResult reason) reply :: own)) :
    Returns R (tryMarkUnknown x reason >>= f) own := by
  refine returns_call fun r => ?_
  cases r with
  | none => exact h (some "KeyError") none fun hsome => by cases hsome
  | some fin => exact h none (some fin) fun _ => rfl

/-- An error of the first part is raised again. -/
theorem returns_enterRunning :
    Returns (fun _ kept => kept = weighty own) (enterRunning py policy p request actor) own := by
  refine (Prog.traced_tryCatch _ _ _ _).mpr (Prog.Traced.mono ((light_getState p).bind (fun cur => light_ite
    (light_startExecutionPathway py policy p actor request) (light_ite (light_raise _) (light_pure ()))) own)
    fun x own' hx => ?_)
  cases x with
  | ok u => exact hx
  | error e =>
    show Returns (fun _ kept => kept = weighty own) (Db.getState p >>= _) own'
    refine (light_getState p).seq fun s own'' _ => ?_
    dsimp only
    split_ifs
    · exact returns_call fun _ => returns_raise
    · exact returns_raise

/-! ### `execute` -/

variable (p request) in
/-- How a fresh row came to be, newest step first. -/
inductive FreshRow : Own → Prop
  | fresh {fp : String} {rec : ExecutionAttemptRecord} : FreshRow [.begin p request fp (.ok (false, rec))]
  | again {fp fp' : String} {rec rec' : ExecutionAttemptRecord} (h : rec.outcome = none) :
    FreshRow [.begin p request fp' (.ok (false, rec')), .discardStarted request.attemptId true,
      .begin p request fp (.ok (true, rec))]

variable (p request) in
/-- The weighty steps of an `execute` that returned this, newest first. -/
inductive ExecuteSteps (r : ExecutionResult) : Own → Prop
  | replayed {fp : String} {rec : ExecutionAttemptRecord} {stored : PersistedResult}
      (hout : rec.outcome = some stored) (hr : resultFromAttempt stored.json = .ok r) :
      ExecuteSteps r [.begin p request fp (.ok (true, rec))]
  | unresolved {fp : String} {rec : ExecutionAttemptRecord} (hout : rec.outcome = none) :
      ExecuteSteps r [.begin p request fp (.ok (true, rec))]
  | dispatched {kept : Own} {outcome : ExecutorOutcome} {res : PersistedResult} {fin : ExecutionAttemptRecord}
      (h : FreshRow p request kept) (hres : persistResult r = .ok res) :
      ExecuteSteps r (.finish request.attemptId res (some fin) :: .invokeExecutor p request outcome :: kept)
  | rejected {kept : Own} {outcome : ExecutorOutcome} {reason : String} {reply : Option ExecutionAttemptRecord}
      (h : FreshRow p request kept)
      (hr : reply.isSome = true → r = ⟨.writeStatusUnknown, [], none, some (.utf8 reason)⟩) :
      ExecuteSteps r
        (.finish request.attemptId (unknownResult reason) reply :: .invokeExecutor p request outcome :: kept)

theorem returns_persistenceUnknown {kept : Own} {outcome : ExecutorOutcome} (h : FreshRow p request kept)
    (hown : weighty own = .invokeExecutor p request outcome :: kept) :
    Returns (ExecuteSteps p request) (persistenceUnknown py policy p request actor) own := by
  unfold persistenceUnknown
  refine returns_tryMarkUnknown fun failure reply hfailure => ?_
  refine (light_record py policy p actor _ _).seq fun _ own₁ h₁ => ?_
  refine (light_transition py policy p actor _ _).seq fun _ own₂ h₂ => returns_pure ?_
  have hkept : weighty own₂ = .finish request.attemptId
      (unknownResult "result_persistence_rejected:AttemptResultPersistenceError") reply ::
        .invokeExecutor p request outcome :: kept := by
    rw [h₂, h₁, ← hown]
    rfl
  rw [hkept]
  refine .rejected h fun hreply => ?_
  rw [hfailure hreply]

theorem returns_dispatch (h : FreshRow p request (weighty own)) :
    Returns (ExecuteSteps p request) (dispatch py policy p request actor) own := by
  rw [dispatch_eq]
  refine returns_seq returns_enterRunning fun _ own₁ h₁ => returns_call fun outcome => ?_
  unfold settle
  refine returns_tryFinish (fun res fin hres => ?_) ?_
  · refine (light_record py policy p actor _ _).seq fun _ own₂ h₂ => ?_
    refine (light_finishExecutionPathway py policy p actor request _).seq fun _ own₃ h₃ => returns_pure ?_
    have hkept : weighty own₃ = .finish request.attemptId res (some fin) ::
        .invokeExecutor p request outcome :: weighty own := by
      rw [h₃, h₂, ← h₁]
      rfl
    rw [hkept]
    exact .dispatched h hres
  · exact returns_persistenceUnknown h (by rw [← h₁]; rfl)

theorem light_admitExecution : Light (admitExecution p request actor) := by
  refine (light_getDefinition p).bind fun d => (light_ofExcept _).bind fun _ => (light_getState p).bind
    fun s => ?_
  refine light_ite ?_ (light_pure ())
  refine Light.bind (light_call (fun _ => rfl) fun _ => light_ofExcept _) fun bound => ?_
  exact light_ite (light_raise _) (light_pure ())

theorem returns_restartAttempt {fp : String} {rec : ExecutionAttemptRecord} (hout : rec.outcome = none)
    (hown : weighty own = [.begin p request fp (.ok (true, rec))]) :
    Returns (fun _ kept => FreshRow p request kept) (restartAttempt py policy p request actor) own := by
  unfold restartAttempt
  refine returns_call fun discarded => ?_
  cases discarded with
  | false => exact returns_raise
  | true =>
    show Returns _ (begin py p request >>= _) _
    refine returns_begin fun fp' r _ => ?_
    obtain ⟨replayed, rec'⟩ := r
    cases replayed with
    | true => exact returns_raise
    | false =>
      refine Prog.Traced.mono (light_record py policy p actor _ _ _) fun x own' hx => ?_
      cases x with
      | error e => trivial
      | ok u =>
        have hkept : weighty own' = .begin p request fp' (.ok (false, rec')) ::
            .discardStarted request.attemptId true :: weighty own := hx
        show FreshRow p request (weighty own')
        rw [hkept, hown]
        exact .again hout

theorem returns_execute : Returns (ExecuteSteps p request) (execute py policy p request actor) [] := by
  refine light_admitExecution.seq fun _ own₁ h₁ => returns_begin fun fp r _ => ?_
  obtain ⟨replayed, rec⟩ := r
  have h₂ : weighty (.begin p request fp (.ok (replayed, rec)) :: own₁) =
      [.begin p request fp (.ok (replayed, rec))] := by
    refine (List.filter_cons_of_pos rfl).trans (congrArg _ ?_)
    exact h₁
  cases replayed with
  | false =>
    refine returns_dispatch ?_
    rw [h₂]
    exact .fresh
  | true =>
    dsimp only
    rw [if_neg (by decide)]
    cases hout : rec.outcome with
    | some stored =>
      refine returns_ofExcept fun r hr => ?_
      refine (light_finishExecutionPathway py policy p actor request r).seq fun _ own₃ h₃ => returns_pure ?_
      rw [h₃, h₂]
      exact .replayed hout hr
    | none =>
      refine (light_getState p).seq fun s own₃ h₃ => ?_
      rw [h₂] at h₃
      by_cases happroved : s = .approved
      · rw [if_pos happroved]
        exact returns_seq (returns_restartAttempt hout h₃) fun _ own₄ h₄ => returns_dispatch h₄
      · rw [if_neg happroved]
        have hlight : Light (replayUnresolved py policy p request actor s) := light_ite
          ((light_transition py policy p actor _ _).bind fun _ => (light_record py policy p actor _ _).bind
            fun _ => light_pure _)
          ((light_record py policy p actor _ _).bind fun _ => light_pure _)
        refine Prog.Traced.mono (hlight own₃) fun x own' hx => ?_
        cases x with
        | error e => trivial
        | ok r =>
          show ExecuteSteps p request r (weighty own')
          rw [show weighty own' = weighty own₃ from hx, h₃]
          exact .unresolved hout

/-! ### `reconcile` -/

variable (py p request) in
/-- A `reconcile` that returned a final result found it in a row, or it stored what was observed. -/
inductive ReconcileSteps (r : ExecutionResult) : Own → Prop
  | replayed {fp : String} {rec : ExecutionAttemptRecord} (hfp : fingerprint py request = .ok fp)
      (hfinal : persistedFinal rec = .ok (some r)) : ReconcileSteps r [.begin p request fp (.ok (true, rec))]
  | observed {fp : String} {rec fin : ExecutionAttemptRecord} {outcome : ObservationOutcome}
      {res : PersistedResult} (hfp : fingerprint py request = .ok fp) (hres : persistResult r = .ok res) :
      ReconcileSteps r [.finish request.attemptId res (some fin), .observe request rec outcome,
        .begin p request fp (.ok (true, rec))]
  | uncertain {kept : Own} (h : r.status = .writeStatusUnknown) : ReconcileSteps r kept

theorem light_admitReconciliation : Light (admitReconciliation p actor) :=
  (light_getDefinition p).bind fun _ => (light_ofExcept _).bind fun _ => (light_getState p).bind
    fun _ => light_ite (light_raise _) (light_pure ())

/-- A result that was accepted has been stored. -/
theorem returns_persistReconciliationResult {result : ExecutionResult} :
    Returns (fun stored kept => stored = true → ∃ res fin, persistResult result = .ok res ∧
      kept = .finish request.attemptId res (some fin) :: weighty own)
      (persistReconciliationResult py policy p request actor result) own := by
  refine returns_tryFinish (fun res fin hres => ?_) ?_
  · rw [if_pos rfl]
    exact returns_pure fun _ => ⟨res, fin, hres, rfl⟩
  · rw [if_neg Bool.false_ne_true]
    refine returns_tryMarkUnknown fun failure reply _ => ?_
    exact (light_record py policy p actor _ _).seq fun _ _ _ => returns_pure fun h => by cases h

theorem ReconciliationResult.status_result {o : ReconciliationResult} (h : o.status = .unresolved) :
    o.result.status = .writeStatusUnknown := by
  unfold ReconciliationResult.result
  rw [h]

theorem returns_classify {rec : ExecutionAttemptRecord} {fp : String} (hfp : fingerprint py request = .ok fp)
    (hown : weighty own = [.begin p request fp (.ok (true, rec))]) :
    Returns (ReconcileSteps py p request) (classify py policy p request actor rec) own := by
  refine returns_call fun outcome => ?_
  cases outcome with
  | raised typeName => exact returns_raise
  | returned observed =>
    dsimp only [Prog.bind]
    by_cases hunresolved : observed.status = .unresolved
    · rw [if_pos hunresolved]
      exact (light_record py policy p actor _ _).seq fun _ _ _ =>
        returns_pure (.uncertain (ReconciliationResult.status_result hunresolved))
    · rw [if_neg hunresolved]
      refine returns_seq returns_persistReconciliationResult fun stored own₁ hstored => ?_
      cases stored with
      | false => exact returns_pure (.uncertain rfl)
      | true =>
        obtain ⟨res, fin, hres, hown₁⟩ := hstored rfl
        refine (light_finishReconciliationPathway py policy p actor request _ false).seq
          fun _ own₂ h₂ => returns_pure ?_
        have hkept : weighty own₂ = [.finish request.attemptId res (some fin),
            .observe request rec (.returned observed), .begin p request fp (.ok (true, rec))] := by
          rw [h₂, hown₁, ← hown]
          rfl
        rw [hkept]
        exact .observed hfp hres

theorem persistedFinal_eq_some {rec : ExecutionAttemptRecord} {r : ExecutionResult} :
    persistedFinal rec = .ok (some r) ↔ ∃ stored, rec.outcome = some stored ∧
      resultFromAttempt stored.json = .ok r ∧ r.status ≠ .writeStatusUnknown := by
  unfold persistedFinal
  cases rec.outcome with
  | none => simp
  | some stored =>
    simp only [Option.some.injEq, exists_eq_left']
    refine except_bind_eq_ok.trans ⟨?_, ?_⟩
    · rintro ⟨r', hr', hfinal⟩
      split_ifs at hfinal with hne
      · obtain rfl := Option.some.inj (Except.ok.inj hfinal)
        exact ⟨hr', hne⟩
      · cases hfinal
    · rintro ⟨hr, hne⟩
      exact ⟨r, hr, by rw [if_pos hne]⟩

theorem returns_reconcile : Returns (ReconcileSteps py p request) (reconcile py policy p request actor) [] := by
  refine light_admitReconciliation.seq fun _ own₁ h₁ => returns_begin fun fp r hfp => ?_
  obtain ⟨replayed, rec⟩ := r
  have h₂ : weighty (.begin p request fp (.ok (replayed, rec)) :: own₁) =
      [.begin p request fp (.ok (replayed, rec))] := by
    refine (List.filter_cons_of_pos rfl).trans (congrArg _ ?_)
    exact h₁
  cases replayed with
  | false => exact returns_call fun _ => returns_raise
  | true =>
    dsimp only
    rw [if_neg (by decide)]
    refine returns_ofExcept fun final hfinal => ?_
    cases final with
    | some persisted =>
      refine (light_finishReconciliationPathway py policy p actor request persisted true).seq
        fun _ own₃ h₃ => returns_pure ?_
      rw [h₃, h₂]
      exact .replayed hfp hfinal
    | none => exact returns_classify hfp h₂

end Weighty

/-! ## In every interleaving -/

/-- The calls of an interleaving that are under way or have ended. -/
def underway (py : Platform) (order : Option RowOrder) (calls : List (Call × List Oracle))
    (acts : List (Machine.Action Call Oracle)) : Machine.Pool Op Res Call World Step PyError CallResult :=
  (database py order).schedule (Call.body py) (.idle (sequential py order calls) calls.length) acts

/-- The call has returned this. -/
def Returned (py : Platform) (order : Option RowOrder) (calls : List (Call × List Oracle))
    (acts : List (Machine.Action Call Oracle)) (t : ℕ) (m : Method) (r : CallResult) : Prop :=
  ∃ policy, (underway py order calls acts).threads t = some (⟨policy, m⟩, .ret r)

section Pools

variable {py : Platform} {order : Option RowOrder} {calls : List (Call × List Oracle)}
  {acts : List (Machine.Action Call Oracle)} {t : ℕ} {p actor : String} {request : ExecutionRequest}
  {r : ExecutionResult}

theorem underway_resumes (py : Platform) (order : Option RowOrder) (calls : List (Call × List Oracle))
    (acts : List (Machine.Action Call Oracle)) :
    (underway py order calls acts).Resumes (database py order) (Call.body py) :=
  Machine.schedule_after (Machine.Pool.resumes_idle (sequential_reach py order calls).2.2) acts

/-- The steps of a call that returned its result as a `CallResult`. -/
theorem returned_steps {m : Method} {R : ExecutionResult → Own → Prop} {q : RedactionPolicy → Db ExecutionResult}
    (hbody : ∀ policy, Call.body py ⟨policy, m⟩ = (do return .executed (← q policy)))
    (hq : ∀ policy, Returns R (q policy) [])
    (h : Returned py order calls acts t m (.executed r)) :
    R r (weighty (own t (interleaved py order calls acts).trace)) := by
  obtain ⟨policy, ht⟩ := h
  have htraced : Returns (fun x kept => ∀ r, x = .executed r → R r kept) (Call.body py ⟨policy, m⟩) [] := by
    rw [hbody]
    refine returns_seq (hq policy) fun r' own' h' => returns_pure fun r hr => ?_
    rw [← CallResult.executed.inj hr]
    exact h'
  exact (underway_resumes py order calls acts).returned ht htraced r rfl

/-- **The steps of an execution that returned.** -/
theorem executed_steps (h : Returned py order calls acts t (.execute p request actor) (.executed r)) :
    ExecuteSteps p request r (weighty (own t (interleaved py order calls acts).trace)) :=
  returned_steps (fun _ => rfl) (fun _ => returns_execute) h

/-- **The steps of a reconciliation that returned.** -/
theorem reconciled_steps (h : Returned py order calls acts t (.reconcile p request actor) (.executed r)) :
    ReconcileSteps py p request r (weighty (own t (interleaved py order calls acts).trace)) :=
  returned_steps (fun _ => rfl) (fun _ => returns_reconcile) h

end Pools

end Rpr
