import PathwayRuntime.Trace.Shapes

/-!
# Every call is justified

One walk through the programs of the model. Each fragment has a rule that says where it ends, from
wherever it starts; an error leaves only quiet steps behind, unless the rule says otherwise.

* `Ends`, `seq`: postconditions of fragments and their sequencing.
* `traced_buildEvent`, `traced_transition`, `traced_finishExecutionPathway`, `traced_dispatch`, ...
* **`Call.body_traced`**: every step of every call is `Justified`, whatever the responses.
-/

set_option autoImplicit false

namespace Rpr

open Resume

/-- A value ends in `R`, an error in `E`. -/
def Ends {α : Type} (R : α → Own → Prop) (E : Own → Prop) : Except PyError α → Own → Prop
  | .ok a, own => R a own
  | .error _, own => E own

/-- Nothing is said about errors. -/
def Anyhow : Own → Prop := fun _ => True

theorem anyhow {E : Own → Prop} : ∀ own, E own → Anyhow own := fun _ _ => trivial

section Rules

variable {py : Platform} {c : Call} {α β : Type} {R : α → Own → Prop} {R' : β → Own → Prop}
  {E E' : Own → Prop} {own : Own}

/-- The program is justified from `own` on and ends in `R`, or with an error in `E`. -/
def Walks (py : Platform) (c : Call) (R : α → Own → Prop) (E : Own → Prop) (p : Db α) (own : Own) :
    Prop :=
  Prog.Traced label (Justified py c) (Ends R E) p own

theorem Walks.mono {S : α → Own → Prop} {p : Db α} (h : Walks py c R E p own)
    (hR : ∀ a own', R a own' → S a own') (hE : ∀ own', E own' → E' own') :
    Walks py c S E' p own :=
  Prog.Traced.mono h fun x own' hx => by
    cases x with
    | ok a => exact hR a own' hx
    | error e => exact hE own' hx

/-- Sequencing of fragments. -/
theorem seq {p : Db α} {f : α → Db β} (h : Walks py c R E p own) (hE : ∀ own', E own' → E' own')
    (hf : ∀ a own', R a own' → Walks py c R' E' (f a) own') : Walks py c R' E' (p >>= f) own :=
  Prog.Traced.bind h hf fun _ own' he => hE own' he

/-- A pure computation. -/
theorem walks_ofExcept (x : Except PyError α) :
    Walks py c (fun a own' => own' = own ∧ x = .ok a) (fun own' => own' = own)
      (Prog.ofExcept x) own := by
  cases x with
  | ok a => exact ⟨rfl, rfl⟩
  | error e => exact rfl

/-- Both branches of a test. -/
theorem walks_ite {P : Prop} [Decidable P] {p q : Db α} (hp : P → Walks py c R E p own)
    (hq : ¬ P → Walks py c R E q own) : Walks py c R E (if P then p else q) own := by
  split_ifs with h
  · exact hp h
  · exact hq h

/-! ### Reads -/

theorem walks_getState (p : String) :
    Walks py c (fun s own' => own' = .getState p (.ok s) :: own) (QuietOver own)
      (Db.getState p) own := by
  intro r
  refine ⟨trivial, ?_⟩
  cases r with
  | ok s => exact rfl
  | error e => exact (QuietOver.refl own).cons rfl

theorem walks_getDefinition (p : String) :
    Walks py c (fun d own' => own' = .getDefinition p (.ok d) :: own) (QuietOver own)
      (Db.getDefinition p) own := by
  intro r
  refine ⟨trivial, ?_⟩
  cases r with
  | ok d => exact rfl
  | error e => exact (QuietOver.refl own).cons rfl

theorem walks_events (p : String) :
    Walks py c (fun es own' => own' = .events p es :: own) E (Db.events p) own :=
  fun _ => ⟨trivial, rfl⟩

theorem walks_latestEventHash (p : String) :
    Walks py c (fun h own' => own' = .latestEventHash p h :: own) E (Db.latestEventHash p) own :=
  fun _ => ⟨trivial, rfl⟩

theorem walks_now : Walks py c (fun t own' => own' = .now t :: own) E Db.now own :=
  fun _ => ⟨trivial, rfl⟩

theorem walks_activeRunningAttemptId (p : String) :
    Walks py c (fun x own' => ∃ events, own' = .events p events :: own ∧
      activeAttempt events.reverse = .ok x) Anyhow (activeRunningAttemptId p) own := by
  refine seq (walks_events p) (fun _ he => he) ?_
  rintro events _ rfl
  exact (walks_ofExcept _).mono (fun _ _ h => ⟨events, h⟩) fun _ _ => trivial

theorem walks_getAttempt (x : String) :
    Walks py c (fun rec own' => own' = .getAttempt x (.ok rec) :: own) (QuietOver own)
      (Db.getAttempt x) own := by
  intro r
  refine ⟨trivial, ?_⟩
  cases r with
  | ok rec => exact rfl
  | error e => exact (QuietOver.refl own).cons rfl

/-! ### Events -/

variable {policy : RedactionPolicy} {p ty actor : String} {payload : List (String × PyValue)}

theorem walks_buildEvent :
    Walks py c (fun event own' => Sealed py policy p ty actor payload own own' event)
      (QuietOver own) (buildEvent py policy p ty actor payload) own := by
  refine seq (walks_latestEventHash p) (fun _ he => he) ?_
  rintro h _ rfl
  refine seq (walks_ofExcept _) (fun _ he => he ▸ (QuietOver.refl own).cons rfl) ?_
  rintro safe _ ⟨rfl, hsafe⟩
  refine seq walks_now (fun _ he => he) ?_
  rintro t _ rfl
  refine (walks_ofExcept (sealEvent py p ty actor safe t h)).mono ?_ ?_
  · rintro event _ ⟨rfl, hevent⟩
    exact ⟨h, safe, t, rfl, hsafe, hevent⟩
  · rintro _ rfl
    exact ((QuietOver.refl own).cons rfl).cons rfl

theorem Sealed.quiet {event : EvidenceEvent} {own' : Own}
    (h : Sealed py policy p ty actor payload own own' event) : QuietOver own own' := by
  obtain ⟨h, safe, t, rfl, -, -⟩ := h
  exact ((QuietOver.refl own).cons rfl).cons rfl

theorem Checked.quiet {d : PathwayDefinition} {cur target : PathwayState} {own' : Own}
    (h : Checked p d cur target actor own own') : QuietOver own own' := by
  obtain ⟨rfl, -, -⟩ := h
  exact ((QuietOver.refl own).cons rfl).cons rfl

/-- Records never name a target. -/
theorem walks_record (hp : c.method.pathwayId = p) (hty : ty ∉ cycleTypes)
    (hto : "to" ∉ payload.map Prod.fst) (hpolicy : policy = c.policy) :
    Walks py c (fun _ own' => Recorded p own own') Anyhow (record py policy p ty actor payload) own := by
  subst hpolicy
  refine seq walks_buildEvent anyhow ?_
  intro event own' hseal r
  refine ⟨⟨p, ty, actor, payload, own, hp, hty, hto, hseal⟩, ?_⟩
  obtain ⟨h, safe, t, rfl, -, -⟩ := hseal
  cases r with
  | ok u => exact ⟨event, h, t, rfl⟩
  | error e => exact trivial

/-- A commit, once it is justified from where its event was built. -/
theorem walks_commit {cur target : PathwayState} (hj : ∀ event own',
      Sealed py policy p ty actor (edgeFields cur target ++ payload) own own' event →
        Commits py c own' p cur target event) :
    Walks py c (fun _ own' => ∃ event base,
        Sealed py policy p ty actor (edgeFields cur target ++ payload) own base event ∧
        own' = .transitionWithEvent p cur target event (.ok ()) :: base) (QuietOver own)
      (commit py policy p ty actor cur target payload) own := by
  refine seq walks_buildEvent (fun _ h => h) ?_
  intro event own' hseal r
  refine ⟨hj event own' hseal, ?_⟩
  cases r with
  | ok u => exact ⟨event, own', hseal, rfl⟩
  | error e => exact hseal.quiet.cons rfl

/-- The reads and checks before a commit. -/
theorem walks_checked {γ : Type} {S : γ → Own → Prop} {target : PathwayState}
    {f : PathwayState → PathwayDefinition → Db γ} (hE : ∀ own', QuietOver own own' → E own')
    (hf : ∀ cur d own', Checked p d cur target actor own own' → Walks py c S E (f cur d) own') :
    Walks py c S E (do
      let cur ← Db.getState p
      let d ← Db.getDefinition p
      Prog.ofExcept (ensureTransition cur target)
      Prog.ofExcept (authorizeTransition d cur target actor)
      f cur d) own := by
  refine seq (walks_getState p) hE ?_
  rintro cur _ rfl
  have hquiet : QuietOver own (.getState p (.ok cur) :: own) := (QuietOver.refl own).cons rfl
  refine seq (walks_getDefinition p) (fun _ h => hE _ (hquiet.trans h)) ?_
  rintro d _ rfl
  have hquiet' := hquiet.cons (s := .getDefinition p (.ok d)) rfl
  refine seq (walks_ofExcept _) (fun _ h => hE _ (h ▸ hquiet')) ?_
  rintro ⟨⟩ _ ⟨rfl, hedge⟩
  refine seq (walks_ofExcept _) (fun _ h => hE _ (h ▸ hquiet')) ?_
  rintro ⟨⟩ _ ⟨rfl, hauth⟩
  exact hf cur d _ ⟨rfl, hedge, hauth⟩

/-- A plain transition, once its commit is justified. -/
theorem walks_transition {target : PathwayState} {reason : PyText}
    (hj : target ≠ .running → ∀ cur d mid event own', Checked p d cur target actor own mid →
      Sealed py policy p "state_transition" actor
        (edgeFields cur target ++ [("reason", .str reason)]) mid own' event →
      Commits py c own' p cur target event) :
    Walks py c (fun _ _ => True) Anyhow (transition py policy p target actor reason) own := by
  refine walks_ite (fun _ => trivial) fun hrun => ?_
  refine walks_checked (fun _ _ => trivial) fun cur d mid hcheck => ?_
  refine seq (walks_commit fun event own' hseal => hj hrun cur d mid event own' hcheck hseal)
    anyhow ?_
  exact fun _ _ _ => trivial

/-- A plain transition a method asks for. -/
theorem walks_requested {target : PathwayState} {reason : PyText}
    (hc : c.method.Requests p target actor) :
    Walks py c (fun _ _ => True) Anyhow (transition py c.policy p target actor reason) [] :=
  walks_transition fun hrun _ _ _ _ _ hcheck hseal => .requested hc hrun hcheck hseal

end Rules

/-! ## `execute` -/

section Execute

variable {py : Platform} {c : Call} {p actor : String} {request : ExecutionRequest} {own : Own}
  (hc : c.method = .execute p request actor)

theorem walks_admitExecution :
    Walks py c (fun _ own' => Admitted p request actor own') Anyhow
      (admitExecution p request actor) [] := by
  refine seq (walks_getDefinition p) anyhow ?_
  rintro d _ rfl
  refine seq (walks_ofExcept _) anyhow ?_
  rintro ⟨⟩ _ ⟨rfl, hauth⟩
  refine seq (walks_getState p) anyhow ?_
  rintro s _ rfl
  refine walks_ite (fun hs => ?_) fun hs => .idle hauth hs
  subst hs
  refine seq (walks_activeRunningAttemptId p) anyhow ?_
  rintro bound _ ⟨events, rfl, hbound⟩
  refine walks_ite (fun _ => trivial) fun hne => ?_
  exact .running hauth (by rw [hbound, not_not.mp hne])

theorem walks_begin (hj : Begins c own p request) :
    Walks py c (fun r own' => ∃ fp, own' = .begin p request fp (.ok r) :: own) Anyhow
      (begin py p request) own := by
  refine seq (walks_ofExcept _) anyhow ?_
  rintro fp _ ⟨rfl, -⟩
  intro r
  refine ⟨hj, ?_⟩
  cases r with
  | ok r => exact ⟨fp, rfl⟩
  | error e => exact trivial

include hc

theorem walks_startExecutionPathway (h : Begun p request actor own) :
    Walks py c (fun _ own' => Cleared py c.policy p request actor own') (QuietOver own)
      (startExecutionPathway py c.policy p request actor) (.getState p (.ok .approved) :: own) := by
  have hquiet : QuietOver own (.getState p (.ok .approved) :: own) := (QuietOver.refl own).cons rfl
  refine walks_checked (fun _ hq => hquiet.trans hq) fun cur d mid hcheck => ?_
  refine (walks_commit fun event own' hseal => ?_).mono ?_ ?_
  · exact .started hc h ⟨d, mid, hcheck, hseal⟩
  · rintro _ _ ⟨event, base, hseal, rfl⟩
    exact .started h ⟨d, mid, hcheck, hseal⟩
  · exact fun _ hq => (hquiet.trans hcheck.quiet).trans hq

/-- The handler discards the row of an attempt that was not moved to `RUNNING`. -/
theorem walks_enterRunning (h : Begun p request actor own) :
    Walks py c (fun _ own' => Cleared py c.policy p request actor own') Anyhow
      (enterRunning py c.policy p request actor) own := by
  refine (Prog.traced_tryCatch _ _ _ _).mpr ?_
  refine Prog.Traced.mono (Q := Ends (fun _ own' => Cleared py c.policy p request actor own')
    (QuietOver own)) ?_ ?_
  · refine seq (walks_getState p) (fun _ hq => hq) ?_
    rintro s _ rfl
    refine walks_ite (fun hs => ?_) fun _ => walks_ite (fun _ => ?_) fun hs => ?_
    · subst hs
      exact walks_startExecutionPathway hc h
    · exact (QuietOver.refl own).cons rfl
    · rw [not_not.mp hs]
      exact .running h
  · intro x own' hx
    cases x with
    | ok u => exact hx
    | error e =>
      refine seq (walks_getState p) anyhow ?_
      rintro s _ rfl
      refine walks_ite (fun hs => ?_) fun _ => trivial
      exact fun r => ⟨.abandoned hc h hx hs rfl, trivial⟩

/-- A final or unknown result moves the pathway on. -/
theorem walks_finishExecutionPathway {result : ExecutionResult}
    (h : Resolved py c.policy p request actor result own) :
    Walks py c (fun _ _ => True) Anyhow
      (finishExecutionPathway py c.policy p request actor result) own := by
  refine seq (walks_getState p) anyhow ?_
  rintro s _ rfl
  cases hr : result.finalTarget with
  | none =>
    refine walks_ite (fun _ => trivial) fun hs => ?_
    refine seq (E := Anyhow) (walks_transition fun _ _ _ _ _ _ hcheck hseal => ?_) anyhow
      fun _ _ _ => trivial
    exact .moved hc (.unknown h hr hs) hcheck hseal
  | some tr =>
    obtain ⟨target, reason⟩ := tr
    dsimp only
    by_cases hf : result.status = .failed
    · -- A failed result: the repair owner is read first.
      have htarget : target = .repairRequired := by
        unfold ExecutionResult.finalTarget at hr
        rw [if_neg (by rw [hf]; exact fun hx => absurd hx.1 (by decide)), if_pos hf] at hr
        exact (Prod.mk.inj (Option.some.inj hr)).1.symm
      subst htarget
      rw [if_pos hf]
      refine seq (E := Anyhow) (R := fun a own' => ∃ d : PathwayDefinition, a = d.repairOwner ∧
        own' = .getDefinition p (.ok d) :: .getState p (.ok s) :: own) ?_ anyhow ?_
      · refine seq (walks_getDefinition p) anyhow ?_
        rintro d _ rfl
        exact ⟨d, rfl, rfl⟩
      · rintro _ _ ⟨d, rfl, rfl⟩
        refine walks_ite (fun _ => trivial) fun _ => walks_ite (fun hs => ?_) fun _ =>
          walks_ite (fun _ => trivial) fun hs => ?_
        · subst hs
          refine seq (E := Anyhow) (walks_transition fun _ _ _ _ _ _ hcheck hseal => ?_) anyhow
            fun _ _ _ => trivial
          exact .moved hc (.failed h hr) hcheck hseal
        · rw [not_not.mp hs]
          refine seq (walks_ofExcept _) anyhow ?_
          rintro ⟨⟩ _ ⟨rfl, -⟩
          refine (walks_commit fun event own' hseal => ?_).mono (fun _ _ _ => trivial) anyhow
          exact .late hc h hr (.failed hf) hseal
    · have htarget : target = .completed := by
        unfold ExecutionResult.finalTarget at hr
        rw [if_neg hf] at hr
        split_ifs at hr
        exact (Prod.mk.inj (Option.some.inj hr)).1.symm
      subst htarget
      rw [if_neg hf]
      refine seq (E := Anyhow) (R := fun a own' => a = actor ∧ own' = .getState p (.ok s) :: own)
        ⟨rfl, rfl⟩ anyhow ?_
      rintro _ _ ⟨rfl, rfl⟩
      refine walks_ite (fun _ => trivial) fun _ => walks_ite (fun hs => ?_) fun _ =>
        walks_ite (fun _ => trivial) fun hs => ?_
      · subst hs
        refine seq (E := Anyhow) (walks_transition fun _ _ _ _ _ _ hcheck hseal => ?_) anyhow
          fun _ _ _ => trivial
        exact .moved hc (.completed h hr) hcheck hseal
      · rw [not_not.mp hs]
        refine seq (walks_ofExcept _) anyhow ?_
        rintro ⟨⟩ _ ⟨rfl, -⟩
        refine (walks_commit fun event own' hseal => ?_).mono (fun _ _ _ => trivial) anyhow
        exact .late hc h hr (.completed hf) hseal

end Execute

/-! ## Storing results -/

section Store

variable {py : Platform} {c : Call} {own : Own} {x : String}

/-- A result is persisted, or rejected before anything happens. -/
theorem walks_tryFinish {result : ExecutionResult}
    (hj : ∀ res, persistResult result = .ok res → Finishes py c own x res) :
    Walks py c (fun persisted own' => if persisted then ∃ res rec, persistResult result = .ok res ∧
        own' = .finish x res (some rec) :: own else own' = own) Anyhow (tryFinish x result) own := by
  unfold tryFinish finish
  cases hres : persistResult result with
  | error e =>
    cases e
    case attemptResultPersistenceError => exact rfl
    all_goals exact trivial
  | ok res =>
    refine fun r => ⟨hj res hres, ?_⟩
    cases r with
    | some rec => exact ⟨res, rec, rfl, rfl⟩
    | none => exact trivial

/-- The fallback of a rejected result. -/
theorem walks_tryMarkUnknown {reason : String} (hj : Finishes py c own x (unknownResult reason)) :
    Walks py c (fun _ own' => ∃ r, own' = .finish x (unknownResult reason) r :: own) Anyhow
      (tryMarkUnknown x reason) own := by
  refine (Prog.traced_tryCatch _ _ _ _).mpr fun r => ⟨hj, ?_⟩
  cases r with
  | some rec => exact ⟨some rec, rfl⟩
  | none => exact ⟨none, rfl⟩

theorem walks_discardStarted {E : Own → Prop} (hj : Discards c own x) :
    Walks py c (fun r own' => own' = .discardStarted x r :: own) E (Db.discardStarted x) own :=
  fun _ => ⟨hj, rfl⟩

theorem walks_invokeExecutor {E : Own → Prop} {p : String} {request : ExecutionRequest}
    (hj : Invokes py c own p request) :
    Walks py c (fun outcome own' => own' = .invokeExecutor p request outcome :: own) E
      (Db.invokeExecutor p request) own :=
  fun _ => ⟨hj, rfl⟩

end Store

section Dispatch

variable {py : Platform} {c : Call} {p actor : String} {request : ExecutionRequest} {own : Own}
  (hc : c.method = .execute p request actor)

include hc

theorem walks_persistenceUnknown {result : ExecutionResult}
    (h : Dispatched py c.policy p request actor result own) :
    Walks py c (fun _ _ => True) Anyhow (persistenceUnknown py c.policy p request actor) own := by
  refine seq (walks_tryMarkUnknown (.executed hc h (.inr ⟨_, rfl⟩))) anyhow ?_
  rintro failure _ ⟨r, rfl⟩
  refine seq (walks_record (by rw [hc]; rfl) (by decide) ?_ rfl) anyhow ?_
  · simp [fallbackFields, ExecutionRequest.fields]
  rintro ⟨⟩ own' hown
  refine seq (E := Anyhow) (walks_transition fun _ _ _ _ _ _ hcheck hseal => ?_) anyhow
    fun _ _ _ => trivial
  exact .moved hc (.rejected h hown) hcheck hseal

theorem walks_dispatch (h : Begun p request actor own) :
    Walks py c (fun _ _ => True) Anyhow (dispatch py c.policy p request actor) own := by
  refine seq (walks_enterRunning hc h) anyhow ?_
  rintro ⟨⟩ own₁ h₁
  refine seq (E := Anyhow) (walks_invokeExecutor ⟨actor, hc, h₁⟩) anyhow ?_
  rintro outcome _ rfl
  have h₂ : Dispatched py c.policy p request actor outcome.result
      (.invokeExecutor p request outcome :: own₁) := .mk h₁
  refine seq (walks_tryFinish fun res hres => .executed hc h₂ (.inl hres)) anyhow ?_
  intro persisted own₃ h₃
  refine walks_ite (fun hp => ?_) fun hp => ?_
  · rw [if_pos hp] at h₃
    obtain ⟨res, rec, hres, rfl⟩ := h₃
    refine seq (walks_record (by rw [hc]; rfl) (by decide) ?_ rfl) anyhow ?_
    · simp [ExecutionRequest.fields, ExecutionResult.fields]
    rintro ⟨⟩ own₄ h₄
    refine seq (walks_finishExecutionPathway hc (.settled h₂ hres h₄)) anyhow fun _ _ _ => trivial
  · rw [if_neg hp] at h₃
    subst h₃
    exact walks_persistenceUnknown hc h₂

theorem walks_restartAttempt {fp : String} {rec : ExecutionAttemptRecord}
    (h : Admitted p request actor own) (hrec : rec.outcome = none) :
    Walks py c (fun _ own' => Begun p request actor own') Anyhow
      (restartAttempt py c.policy p request actor)
      (.getState p (.ok .approved) :: .begin p request fp (.ok (true, rec)) :: own) := by
  refine seq (E := Anyhow) (walks_discardStarted (.restart hc h hrec rfl)) anyhow ?_
  rintro discarded _ rfl
  cases discarded with
  | false => exact trivial
  | true =>
    refine seq (walks_begin (.again hc h hrec rfl)) anyhow ?_
    rintro ⟨replayed, rec'⟩ _ ⟨fp', rfl⟩
    cases replayed with
    | true => exact trivial
    | false =>
      refine (walks_record (by rw [hc]; rfl) (by decide) ?_ rfl).mono (fun _ own' hown => ?_) anyhow
      · simp [ExecutionRequest.fields]
      · exact .restarted h hrec hown

theorem walks_replayUnresolved {fp : String} {rec : ExecutionAttemptRecord} {s : PathwayState}
    (h : Admitted p request actor own) (hrec : rec.outcome = none) :
    Walks py c (fun _ _ => True) Anyhow (replayUnresolved py c.policy p request actor s)
      (.getState p (.ok s) :: .begin p request fp (.ok (true, rec)) :: own) := by
  have hrest : ∀ own', Walks py c (fun (_ : ExecutionResult) _ => True) Anyhow (do
      record py c.policy p "execution_replay_unresolved" actor
        (request.fields ++ [("pathway_state", .text s.value)])
      return ⟨.writeStatusUnknown, [], none,
        some "prior_attempt_started_without_persisted_result"⟩) own' := fun own' => by
    refine seq (walks_record (by rw [hc]; rfl) (by decide) ?_ rfl) anyhow fun _ _ _ => trivial
    simp [ExecutionRequest.fields]
  unfold replayUnresolved
  by_cases hs : s = .running
  · subst hs
    refine seq (E := Anyhow) (walks_transition fun _ _ _ _ _ _ hcheck hseal => ?_) anyhow
      fun _ own' _ => hrest own'
    exact .moved hc (.unresolved h hrec) hcheck hseal
  · dsimp only
    rw [if_neg hs]
    exact hrest _

theorem walks_execute :
    Walks py c (fun _ _ => True) Anyhow (execute py c.policy p request actor) [] := by
  refine seq walks_admitExecution anyhow ?_
  rintro ⟨⟩ own h
  refine seq (walks_begin (.execute hc h)) anyhow ?_
  rintro ⟨replayed, rec⟩ _ ⟨fp, rfl⟩
  cases replayed with
  | false => exact walks_dispatch hc (.fresh h)
  | true =>
    dsimp only
    rw [if_neg (by decide)]
    cases hrec : rec.outcome with
    | some stored =>
      refine seq (walks_ofExcept _) anyhow ?_
      rintro result _ ⟨rfl, hresult⟩
      exact seq (walks_finishExecutionPathway hc (.replayed h hrec hresult)) anyhow
        fun _ _ _ => trivial
    | none =>
      refine seq (walks_getState p) anyhow ?_
      rintro s _ rfl
      refine walks_ite (fun hs => ?_) fun _ => walks_replayUnresolved hc h hrec
      subst hs
      refine seq (walks_restartAttempt hc h hrec) anyhow ?_
      exact fun _ own' hown => walks_dispatch hc hown

end Dispatch

/-! ## `reconcile` -/

section Reconcile

variable {py : Platform} {c : Call} {p actor : String} {request : ExecutionRequest} {own : Own}

theorem walks_admitReconciliation :
    Walks py c (fun _ own' => ReconcileAdmitted p actor own') Anyhow
      (admitReconciliation p actor) [] := by
  refine seq (walks_getDefinition p) anyhow ?_
  rintro d _ rfl
  refine seq (walks_ofExcept _) anyhow ?_
  rintro ⟨⟩ _ ⟨rfl, hauth⟩
  refine seq (walks_getState p) anyhow ?_
  rintro s _ rfl
  exact walks_ite (fun _ => trivial) fun hs => .mk hauth (not_not.mp hs)

variable (hc : c.method = .reconcile p request actor)

include hc

theorem walks_finishReconciliationPathway {result : ExecutionResult} {replayed : Bool}
    (h : Reconciled p request actor result own) :
    Walks py c (fun _ _ => True) Anyhow
      (finishReconciliationPathway py c.policy p request actor result replayed) own := by
  refine seq (walks_getState p) anyhow ?_
  rintro s _ rfl
  refine walks_ite (fun _ => trivial) fun _ => walks_ite (fun _ => trivial) fun hs => ?_
  rw [not_not.mp hs]
  refine seq (walks_ofExcept _) anyhow ?_
  rintro ⟨⟩ _ ⟨rfl, -⟩
  refine (walks_commit fun event own' hseal => ?_).mono (fun _ _ _ => trivial) anyhow
  exact .reconciled hc h hseal

theorem walks_persistReconciliationResult {observed : ReconciliationResult}
    (h : Observed p request actor observed own) (hs : observed.status ≠ .unresolved) :
    Walks py c (fun persisted own' => persisted = true →
        Reconciled p request actor observed.result own') Anyhow
      (persistReconciliationResult py c.policy p request actor observed.result) own := by
  refine seq (walks_tryFinish fun res hres => .reconciled hc h hs (.inl hres)) anyhow ?_
  intro persisted own' h'
  refine walks_ite (fun hp => ?_) fun hp => ?_
  · rw [if_pos hp] at h'
    obtain ⟨res, rec, hres, rfl⟩ := h'
    exact fun _ => .settled h hs hres
  · rw [if_neg hp] at h'
    subst h'
    refine seq (walks_tryMarkUnknown (.reconciled hc h hs (.inr ⟨_, rfl⟩))) anyhow ?_
    rintro failure _ ⟨r, rfl⟩
    refine seq (walks_record (by rw [hc]; rfl) (by decide) ?_ rfl) anyhow fun _ _ _ =>
      fun hfalse => absurd hfalse (by decide)
    simp [fallbackFields, ExecutionRequest.fields]

theorem walks_classify {fp : String} {rec : ExecutionAttemptRecord}
    (h : ReconcileAdmitted p actor own)
    (hrec : ∀ stored, rec.outcome = some stored → stored.status = .writeStatusUnknown) :
    Walks py c (fun _ _ => True) Anyhow (classify py c.policy p request actor rec)
      (.begin p request fp (.ok (true, rec)) :: own) := by
  refine fun outcome => ⟨trivial, ?_⟩
  cases outcome with
  | raised typeName => exact trivial
  | returned observed =>
    have h' : Observed p request actor observed
        (.observe request rec (.returned observed) :: .begin p request fp (.ok (true, rec)) :: own) :=
      .mk h hrec
    refine walks_ite (fun _ => ?_) fun hs => ?_
    · refine seq (walks_record (by rw [hc]; rfl) (by decide) ?_ rfl) anyhow fun _ _ _ => trivial
      simp [ExecutionRequest.fields]
    · refine seq (walks_persistReconciliationResult hc h' hs) anyhow ?_
      intro persisted own' hp
      refine walks_ite (fun ht => ?_) fun _ => trivial
      exact seq (walks_finishReconciliationPathway hc (hp ht)) anyhow fun _ _ _ => trivial

theorem walks_reconcile :
    Walks py c (fun _ _ => True) Anyhow (reconcile py c.policy p request actor) [] := by
  refine seq walks_admitReconciliation anyhow ?_
  rintro ⟨⟩ own h
  refine seq (walks_begin (.reconcile hc h)) anyhow ?_
  rintro ⟨replayed, rec⟩ _ ⟨fp, rfl⟩
  cases replayed with
  | false =>
    exact seq (E := Anyhow) (walks_discardStarted (.reconcile hc h rfl)) anyhow fun _ _ _ => trivial
  | true =>
    dsimp only
    rw [if_neg (by decide)]
    refine seq (walks_ofExcept _) anyhow ?_
    rintro final _ ⟨rfl, hfinal⟩
    cases hrec : rec.outcome with
    | none =>
      rw [persistedFinal, hrec] at hfinal
      cases hfinal
      exact walks_classify hc h fun stored hs => by rw [hrec] at hs; cases hs
    | some stored =>
      obtain ⟨result, hdec, hstatus⟩ := stored.decodes
      simp only [persistedFinal, hrec, hdec, bind, Except.bind, Except.ok.injEq] at hfinal
      subst hfinal
      by_cases hunknown : result.status = .writeStatusUnknown
      · rw [if_neg (not_not.mpr hunknown)]
        exact walks_classify hc h fun s hs => by
          obtain rfl := Option.some.inj (hrec.symm.trans hs)
          rw [← hstatus, hunknown]
      · rw [if_pos hunknown]
        exact seq (walks_finishReconciliationPathway hc (.replayed h hrec hdec hunknown)) anyhow
          fun _ _ _ => trivial

end Reconcile

/-! ## The other methods -/

section Others

variable {py : Platform} {c : Call}

theorem walks_register {d : PathwayDefinition} {key : String} (hc : c.method = .register d key) :
    Walks py c (fun _ _ => True) Anyhow (register py c.policy d key) [] := by
  refine seq (E := Anyhow) (R := fun outcome own' => own' = [.evaluateRpe d outcome])
    (fun _ => ⟨trivial, rfl⟩) anyhow ?_
  rintro outcome _ rfl
  refine seq (walks_ofExcept _) anyhow ?_
  rintro ⟨decision, codes, raw⟩ _ ⟨rfl, hread⟩
  refine seq (E := Anyhow) (R := fun _ _ => True) ?_ anyhow ?_
  · refine walks_ite (fun _ => trivial) fun _ => ?_
    cases Json.canonical d.toDict with
    | none => exact trivial
    | some canonical =>
      refine fun r => ⟨⟨key, outcome, decision, codes, raw, hc, rfl, hread, rfl⟩, ?_⟩
      cases r <;> exact trivial
  · rintro ⟨replayed, state⟩ own -
    cases replayed with
    | true => exact trivial
    | false =>
      refine seq (walks_record (by rw [hc]; rfl) (by decide) ?_ rfl) anyhow fun _ _ _ => trivial
      simp

theorem walks_transitionAsPrincipal {p : String} {target : PathwayState}
    {resolved : Except PyError (Principal × String)} {reason : PyText}
    (hc : c.method = .transitionAsPrincipal p target resolved reason) :
    Walks py c (fun _ _ => True) Anyhow
      (transitionAsPrincipal py c.policy p target resolved reason) [] := by
  refine seq (walks_ofExcept _) anyhow ?_
  rintro ⟨principal, actor⟩ _ ⟨rfl, hresolved⟩
  subst hresolved
  refine seq (walks_requested (by rw [hc]; exact ⟨rfl, rfl, rfl⟩)) anyhow ?_
  intro s own _
  refine seq (walks_record (by rw [hc]; rfl) (by decide) ?_ rfl) anyhow fun _ _ _ => trivial
  simp

variable {p actor : String}

theorem walks_requireFailedAttempt {prior message : String} :
    Walks py c (fun _ own' => ∃ rec : ExecutionAttemptRecord,
        (rec.pathwayId = p ∧ rec.final = some .failed) ∧ own' = [.getAttempt prior (.ok rec)]) Anyhow
      (requireFailedAttempt p prior message) [] := by
  refine seq (walks_getAttempt prior) anyhow ?_
  rintro rec _ rfl
  refine walks_ite (fun _ => trivial) fun hp => walks_ite (fun _ => trivial) fun hs => ?_
  simp only [not_or, not_not] at hp hs
  exact ⟨rec, ⟨hp.1, AttemptRow.status_eq_value.mp hs⟩, rfl⟩

theorem walks_completeRepair {prior : String} {evidence : PyDict} {reason : PyText}
    {compensation : Option CompensationRecord}
    (hc : c.method = .completeRepair p actor prior evidence reason compensation) :
    Walks py c (fun _ _ => True) Anyhow
      (completeRepair py c.policy p actor prior evidence reason compensation) [] := by
  refine walks_ite (fun _ => trivial) fun _ => walks_ite (fun _ => trivial) fun _ => ?_
  refine seq walks_requireFailedAttempt anyhow ?_
  rintro ⟨⟩ _ ⟨rec, hrec, rfl⟩
  refine walks_checked (fun _ _ => trivial) fun cur d mid hcheck => ?_
  refine seq (walks_ofExcept _) anyhow ?_
  rintro value _ ⟨rfl, -⟩
  refine seq (walks_commit fun event own' hseal => ?_) anyhow fun _ _ _ => trivial
  exact .repaired hc hrec hcheck hseal

theorem walks_requireNewAttempt {next : String} {own : Own} :
    Walks py c (fun _ own' => ∃ key, own' = .getAttempt next (.error (.keyError key)) :: own) Anyhow
      (requireNewAttempt next) own := by
  refine seq (E := Anyhow) (R := fun found own' => found = false →
    ∃ key, own' = .getAttempt next (.error (.keyError key)) :: own) ?_ anyhow ?_
  · refine (Prog.traced_tryCatch _ _ _ _).mpr fun r => ⟨trivial, ?_⟩
    cases r with
    | ok rec => exact fun h => absurd h (by decide)
    | error e =>
      cases e
      case keyError key => exact fun _ => ⟨key, rfl⟩
      all_goals exact trivial
  · intro found own' hown
    exact walks_ite (fun _ => trivial) fun hf => hown (by simpa using hf)

theorem walks_resume {prior next : String} {reason : PyText}
    (hc : c.method = .resume p actor prior next reason) :
    Walks py c (fun _ _ => True) Anyhow (resume py c.policy p actor prior next reason) [] := by
  refine walks_ite (fun _ => trivial) fun hblank => walks_ite (fun _ => trivial) fun hne => ?_
  refine seq walks_requireFailedAttempt anyhow ?_
  rintro ⟨⟩ _ ⟨rec, hrec, rfl⟩
  refine seq walks_requireNewAttempt anyhow ?_
  rintro ⟨⟩ _ ⟨key, rfl⟩
  refine seq (E := Anyhow) (walks_events p) anyhow ?_
  rintro events _ rfl
  refine walks_ite (fun _ => trivial) fun hrepair => ?_
  refine walks_checked (fun _ _ => trivial) fun cur d mid hcheck => ?_
  refine seq (walks_commit fun event own' hseal => ?_) anyhow fun _ _ _ => trivial
  exact .resumed hc (by simpa using fun h => hblank (.inr h)) hne hrec (not_not.mp hrepair) hcheck
    hseal

theorem walks_abortWithResiduals {residuals : PyDict} {reason : PyText}
    (hc : c.method = .abortWithResiduals p actor residuals reason) :
    Walks py c (fun _ _ => True) Anyhow
      (abortWithResiduals py c.policy p actor residuals reason) [] := by
  refine walks_ite (fun _ => trivial) fun hres => ?_
  refine seq (walks_getState p) anyhow ?_
  rintro cur _ rfl
  refine seq (walks_getDefinition p) anyhow ?_
  rintro d _ rfl
  refine seq (walks_ofExcept _) anyhow ?_
  rintro ⟨⟩ _ ⟨rfl, hedge⟩
  refine walks_ite (fun _ => trivial) fun hactor => ?_
  refine seq (walks_commit fun event own' hseal => ?_) anyhow fun _ _ _ => trivial
  simp only [not_or, not_not, Bool.not_eq_true] at hactor
  exact .closed hc (fun h => hres (by rw [h]; rfl)) hactor hedge hseal

end Others

/-- **Every step of every call is justified by the steps the call made before it.** -/
theorem Call.body_traced (py : Platform) (c : Call) :
    Prog.Traced label (Justified py c) (fun _ _ => True) (c.body py) [] := by
  have hret : ∀ {α : Type} {p : Db α} {f : α → CallResult}, Walks py c (fun _ _ => True) Anyhow p [] →
      Prog.Traced label (Justified py c) (fun _ _ => True) (do return f (← p)) [] := by
    intro α p f h
    refine Prog.Traced.mono (Q := Ends (fun _ _ => True) Anyhow) ?_ fun _ _ _ => trivial
    exact seq h anyhow fun _ _ _ => trivial
  unfold Call.body
  split <;> rename_i hc <;> refine hret ?_
  · exact walks_register hc
  · exact walks_requested (by rw [hc]; exact ⟨rfl, rfl, rfl⟩)
  · exact walks_transitionAsPrincipal hc
  · exact walks_requested (by rw [hc]; exact ⟨rfl, rfl, rfl⟩)
  · exact walks_requested (by rw [hc]; exact ⟨rfl, rfl, rfl⟩)
  · exact walks_execute hc
  · exact walks_reconcile hc
  · exact (walks_events _).mono (E := Anyhow) (fun _ _ _ => trivial) anyhow
  · exact seq (E := Anyhow) (walks_events _) anyhow fun _ _ _ => trivial
  · exact walks_completeRepair hc
  · exact walks_resume hc
  · exact walks_abortWithResiduals hc

end Rpr
