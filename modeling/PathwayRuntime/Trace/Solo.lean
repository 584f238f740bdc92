import PathwayRuntime.Resume.Solo
import PathwayRuntime.Trace.Binding

/-!
# What a call made alone does

Each fragment of the programs has a rule: what is asked of the whole follows from what is asked of the
rest, in the world the fragment leaves behind, for every way the fragment can end. The rule of a
fragment that can fail says when it does.

* `Solo`: a program run alone, with a guarantee on the events it appends and on the executor it calls.
* `Recordable`, `Transits`: what an event and a transition need.
* `solo_getState`, `solo_record`, `solo_transition`, `solo_begin`, ...: the rules.
* `runAlone`: a run of one program from a given world.
* **`solo_last`**: what a run whose last call ensures `Q` looks like.
-/

set_option autoImplicit false

namespace Rpr

open Resume

/-- No constraint of the database was violated. -/
def Step.intact : Step → Bool
  | .createOrReplayPathway _ _ _ _ (.error (.integrityError _)) => false
  | .transitionWithEvent _ _ _ _ (.error (.integrityError _)) => false
  | .appendEvent _ (.error (.integrityError _)) => false
  | _ => true

/-- The step appends an event or calls the executor. -/
def Step.outward : Step → Bool
  | .appendEvent _ (.ok _) => true
  | .invokeExecutor .. => true
  | _ => false

/-- The steps of the environment never violate a constraint. -/
def Sound (A : Step → Prop) : Prop := ∀ s, A s → s.intact = true

/-- The program run alone from a world, in an environment whose steps satisfy `A`: its outward steps
satisfy `G` and it ends in `Q`. -/
def Solo {α : Type} (py : Platform) (order : Option RowOrder) (A : Step → Prop) (G : World → Step → Prop)
    (Q : Except PyError α → World → Prop) (p : Db α) (w : World) : Prop :=
  (database py order).Ensures A (fun w s => s.outward = true → G w s) Q p w

/-- An event with this payload can be built. -/
def Recordable (py : Platform) (policy : RedactionPolicy) (payload : List (String × PyValue)) : Prop :=
  ∃ safe, policy.redact py (.ofFields payload) = .ok safe ∧ (Json.canonical safe).isSome

/-- The event was built in this world. -/
def Built (py : Platform) (policy : RedactionPolicy) (w : World) (p ty actor : String)
    (payload : List (String × PyValue)) (event : EvidenceEvent) : Prop :=
  ∃ safe t, policy.redact py (.ofFields payload) = .ok safe ∧
    sealEvent py p ty actor safe t (headHash (w.log p)) = .ok event

theorem Built.sealed {py : Platform} {policy : RedactionPolicy} {w : World} {p ty actor : String}
    {payload : List (String × PyValue)} {event : EvidenceEvent}
    (h : Built py policy w p ty actor payload event) :
    ∃ base own, Sealed py policy p ty actor payload base own event := by
  obtain ⟨safe, t, hsafe, hseal⟩ := h
  exact ⟨[], _, headHash (w.log p), safe, t, rfl, hsafe, hseal⟩

theorem Built.pathwayId {py : Platform} {policy : RedactionPolicy} {w : World} {p ty actor : String}
    {payload : List (String × PyValue)} {event : EvidenceEvent}
    (h : Built py policy w p ty actor payload event) : event.pathwayId = p := by
  obtain ⟨base, own, hseal⟩ := h.sealed
  exact hseal.fields.1

/-- What was built could be recorded. -/
theorem Built.recordable {py : Platform} {policy : RedactionPolicy} {w : World} {p ty actor : String}
    {payload : List (String × PyValue)} {event : EvidenceEvent}
    (h : Built py policy w p ty actor payload event) : Recordable py policy payload := by
  obtain ⟨safe, t, hsafe, hseal⟩ := h
  have hsome : (canonicalPayload p ty actor safe t (headHash (w.log p))).isSome := by
    unfold sealEvent at hseal
    cases hc : canonicalPayload p ty actor safe t (headHash (w.log p)) with
    | none => rw [hc] at hseal; cases hseal
    | some c => rfl
  exact ⟨safe, hsafe, canonicalPayload_isSome.mp hsome⟩

section Rules

variable {py : Platform} {order : Option RowOrder} {A : Step → Prop} {G : World → Step → Prop}
  {α β : Type} {Q : Except PyError β → World → Prop} {w : World} {p : String}

theorem solo_pure {b : β} (h : Q (.ok b) w) : Solo py order A G Q (pure b) w := h

theorem solo_raise {e : PyError} (h : Q (.error e) w) : Solo py order A G Q (.raise e) w := h

/-- Sequencing of fragments. -/
theorem solo_seq {Q' : Except PyError α → World → Prop} {q : Db α} {f : α → Db β}
    (h : Solo py order A G Q' q w) (hok : ∀ a w', Q' (.ok a) w' → Solo py order A G Q (f a) w')
    (herr : ∀ e w', Q' (.error e) w' → Q (.error e) w') : Solo py order A G Q (q >>= f) w :=
  Machine.Ensures.bind h hok herr

theorem solo_ofExcept {x : Except PyError α} {f : α → Db β}
    (hok : ∀ a, x = .ok a → Solo py order A G Q (f a) w) (herr : ∀ e, x = .error e → Q (.error e) w) :
    Solo py order A G Q (Prog.ofExcept x >>= f) w := by
  cases x with
  | ok a => exact hok a rfl
  | error e => exact herr e rfl

/-- One operation, with the response and the world it leads to. -/
theorem solo_exec {op : Op} {k : Res op → Db β} (h : ∀ o r w', exec py order op o w = (r, w') →
      A (label op r) → ((label op r).outward = true → G w (label op r)) ∧ Solo py order A G Q (k r) w') :
    Solo py order A G Q (.call op k) w :=
  fun o ha => h o _ _ rfl ha

/-- An operation that is not outward. -/
theorem solo_call {op : Op} {k : Res op → Db β}
    (hout : ∀ r, (label op r).outward = false) (h : ∀ o, A (label op (exec py order op o w).1) →
      Solo py order A G Q (k (exec py order op o w).1) (exec py order op o w).2) :
    Solo py order A G Q (.call op k) w :=
  fun o ha => ⟨fun ht => absurd ((hout _).symm.trans ht) Bool.false_ne_true, h o ha⟩

/-! ### Reads -/

theorem solo_getState {f : PathwayState → Db β}
    (hok : ∀ s, w.state p = some s → Solo py order A G Q (f s) w)
    (herr : w.state p = none → Q (.error (.keyError p)) w) :
    Solo py order A G Q (Db.getState p >>= f) w := by
  refine solo_call (fun _ => rfl) fun o _ => ?_
  show Solo py order A G Q ((Prog.ofExcept (w.getState p)).bind f) w
  unfold World.getState
  cases hs : w.state p with
  | none => exact herr hs
  | some s => exact hok s hs

/-- Reading a state that is known. -/
theorem solo_getState_some {f : PathwayState → Db β} {s : PathwayState} (hs : w.state p = some s)
    (h : Solo py order A G Q (f s) w) : Solo py order A G Q (Db.getState p >>= f) w :=
  solo_getState (fun s' hs' => Option.some.inj (hs.symm.trans hs') ▸ h)
    fun hnone => absurd (hs.symm.trans hnone) (by simp)

theorem solo_getDefinition {f : PathwayDefinition → Db β}
    (hok : ∀ d, w.getDefinition py p = .ok d → Solo py order A G Q (f d) w)
    (herr : ∀ e, w.getDefinition py p = .error e → Q (.error e) w) :
    Solo py order A G Q (Db.getDefinition p >>= f) w := by
  refine solo_call (fun _ => rfl) fun o _ => ?_
  show Solo py order A G Q ((Prog.ofExcept (w.getDefinition py p)).bind f) w
  cases hd : w.getDefinition py p with
  | ok d => exact hok d hd
  | error e => exact herr e hd

/-- Reading a definition that is known. -/
theorem solo_getDefinition_ok {f : PathwayDefinition → Db β} {d : PathwayDefinition}
    (hd : w.getDefinition py p = .ok d) (h : Solo py order A G Q (f d) w) :
    Solo py order A G Q (Db.getDefinition p >>= f) w :=
  solo_getDefinition (fun d' hd' => Except.ok.inj (hd.symm.trans hd') ▸ h)
    fun e he => absurd (hd.symm.trans he) (by simp)

theorem solo_activeRunningAttemptId {f : String → Db β}
    (hok : ∀ x, activeAttempt (w.log p) = .ok x → Solo py order A G Q (f x) w)
    (herr : ∀ e, Q (.error e) w) : Solo py order A G Q (activeRunningAttemptId p >>= f) w := by
  refine solo_call (fun _ => rfl) fun _ _ => ?_
  show Solo py order A G Q ((Prog.ofExcept (activeAttempt (w.log p).reverse.reverse)).bind f) w
  rw [List.reverse_reverse]
  exact solo_ofExcept hok fun e _ => herr e

/-! ### Events -/

variable {policy : RedactionPolicy} {ty actor : String} {payload : List (String × PyValue)}

theorem solo_buildEvent {f : EvidenceEvent → Db β}
    (hok : ∀ event, Built py policy w p ty actor payload event → Solo py order A G Q (f event) w)
    (herr : ¬ Recordable py policy payload → ∀ e, Q (.error e) w) :
    Solo py order A G Q (buildEvent py policy p ty actor payload >>= f) w := by
  refine solo_call (fun _ => rfl) fun _ _ => ?_
  show Solo py order A G Q ((Prog.ofExcept (policy.redact py (.ofFields payload)) >>= fun safe =>
    Db.now >>= fun t => Prog.ofExcept (sealEvent py p ty actor safe t (headHash (w.log p)))) >>= f) w
  cases hsafe : policy.redact py (.ofFields payload) with
  | error e =>
    exact herr (fun ⟨safe, hok, _⟩ => by rw [hsafe] at hok; cases hok) e
  | ok safe =>
    refine solo_call (fun _ => rfl) fun o _ => ?_
    show Solo py order A G Q (Prog.ofExcept (sealEvent py p ty actor safe o.time
      (headHash (w.log p))) >>= f) w
    refine solo_ofExcept (fun event hevent => hok event ⟨safe, o.time, hsafe, hevent⟩) fun e he => ?_
    refine herr (fun ⟨safe', hsafe', hcanon⟩ => ?_) e
    obtain rfl := Except.ok.inj (hsafe.symm.trans hsafe')
    obtain ⟨c, hc⟩ := Option.isSome_iff_exists.mp (canonicalPayload_isSome.mpr hcanon)
    rw [sealEvent, hc] at he
    cases he

/-- Every error of `append_event` is a violated constraint. -/
theorem appendEvent_intact {event : EvidenceEvent} {e : PyError}
    (h : (w.appendEvent event).1 = .error e) : (Step.appendEvent event (.error e)).intact = false := by
  unfold World.appendEvent World.insertEvent at h
  split_ifs at h <;> cases h <;> rfl

/-- A compare-and-set on the state that was read only fails on a violated constraint. -/
theorem transitionWithEvent_intact {cur target : PathwayState} {event : EvidenceEvent} {e : PyError}
    (hs : w.state p = some cur) (h : (w.transitionWithEvent p cur target event).1 = .error e) :
    (Step.transitionWithEvent p cur target event (.error e)).intact = false := by
  unfold World.transitionWithEvent World.insertEvent at h
  simp only [hs, ne_eq, not_true_eq_false, if_false] at h
  split_ifs at h <;> cases h <;> rfl

theorem solo_record {f : Unit → Db β}
    (hG : ∀ event, Built py policy w p ty actor payload event → G w (.appendEvent event (.ok ())))
    (hok : ∀ event, Built py policy w p ty actor payload event →
      Solo py order A G Q (f ()) (w.push event))
    (herr : ¬ (Recordable py policy payload ∧ Sound A) → ∀ e, Q (.error e) w) :
    Solo py order A G Q (record py policy p ty actor payload >>= f) w := by
  have hassoc : record py policy p ty actor payload >>= f =
      buildEvent py policy p ty actor payload >>= fun event => Db.appendEvent event >>= f := by
    simp only [record, Prog.bind_eq, Prog.bind_assoc]
  rw [hassoc]
  refine solo_buildEvent (fun event hevent => ?_) fun h => herr fun hr => h hr.1
  refine solo_exec fun o r w' hexec ha => ?_
  have hr : w.appendEvent event = (r, w') := hexec
  cases r with
  | ok u =>
    have hw : w' = w.push event :=
      (congrArg Prod.snd hr).symm.trans (World.appendEvent_ok (congrArg Prod.fst hr)).1
    exact ⟨fun _ => hG event hevent, hw ▸ hok event hevent⟩
  | error e =>
    have hw : w' = w :=
      (congrArg Prod.snd hr).symm.trans (World.appendEvent_error (congrArg Prod.fst hr))
    refine ⟨fun h => absurd h Bool.false_ne_true, hw ▸ herr (fun hs => ?_) e⟩
    exact absurd ((appendEvent_intact (congrArg Prod.fst hr)).symm.trans (hs.2 _ ha)) Bool.false_ne_true

/-- Committing a state change on the state that was read. -/
theorem solo_commit {f : Unit → Db β} {cur target : PathwayState} (hs : w.state p = some cur)
    (hok : ∀ event, Built py policy w p ty actor (edgeFields cur target ++ payload) event →
      Solo py order A G Q (f ()) (w.commit p target event))
    (herr : ¬ (Recordable py policy (edgeFields cur target ++ payload) ∧ Sound A) →
      ∀ e, Q (.error e) w) :
    Solo py order A G Q (commit py policy p ty actor cur target payload >>= f) w := by
  have hassoc : commit py policy p ty actor cur target payload >>= f =
      buildEvent py policy p ty actor (edgeFields cur target ++ payload) >>= fun event =>
        Db.transitionWithEvent p cur target event >>= f := by
    simp only [commit, Prog.bind_eq, Prog.bind_assoc]
  rw [hassoc]
  refine solo_buildEvent (fun event hevent => ?_) fun h => herr fun hr => h hr.1
  refine solo_exec fun o r w' hexec ha => ⟨fun h => absurd h Bool.false_ne_true, ?_⟩
  have hr : w.transitionWithEvent p cur target event = (r, w') := hexec
  cases r with
  | ok u =>
    have hw : w' = w.commit p target event :=
      (congrArg Prod.snd hr).symm.trans (World.transitionWithEvent_ok (congrArg Prod.fst hr)).2
    exact hw ▸ hok event hevent
  | error e =>
    have hw : w' = w :=
      (congrArg Prod.snd hr).symm.trans (World.transitionWithEvent_error (congrArg Prod.fst hr))
    refine hw ▸ herr (fun hsound => ?_) e
    exact absurd ((transitionWithEvent_intact hs (congrArg Prod.fst hr)).symm.trans (hsound.2 _ ha))
      Bool.false_ne_true

/-- What a plain transition needs. -/
structure Transits (py : Platform) (policy : RedactionPolicy) (d : PathwayDefinition)
    (cur target : PathwayState) (actor : String) (reason : PyText) : Prop where
  plain : target ≠ .running
  edge : target ∈ allowedTransitions cur
  authority : authorizeTransition d cur target actor = .ok ()
  record : Recordable py policy (edgeFields cur target ++ [("reason", .str reason)])

/-- The reads and checks before a commit, on a known pathway. -/
theorem solo_checked {f : PathwayState → PathwayDefinition → Db β} {cur target : PathwayState}
    {d : PathwayDefinition} (hs : w.state p = some cur) (hd : w.getDefinition py p = .ok d)
    (hok : target ∈ allowedTransitions cur → authorizeTransition d cur target actor = .ok () →
      Solo py order A G Q (f cur d) w)
    (herr : ¬ (target ∈ allowedTransitions cur ∧ authorizeTransition d cur target actor = .ok ()) →
      ∀ e, Q (.error e) w) :
    Solo py order A G Q (do
      let cur ← Db.getState p
      let d ← Db.getDefinition p
      Prog.ofExcept (ensureTransition cur target)
      Prog.ofExcept (authorizeTransition d cur target actor)
      f cur d) w := by
  refine solo_getState_some hs (solo_getDefinition_ok hd (solo_ofExcept (fun u hedge => ?_) ?_))
  · have hedge' := ensureTransition_ok.mp hedge
    exact solo_ofExcept (fun u hauth => hok hedge' hauth) fun e he =>
      herr (fun h => by rw [h.2] at he; cases he) e
  · exact fun e he => herr (fun h => by rw [ensureTransition_ok.mpr h.1] at he; cases he) e

theorem solo_transition {f : PathwayState → Db β} {cur target : PathwayState} {d : PathwayDefinition}
    {reason : PyText} (hs : w.state p = some cur) (hd : w.getDefinition py p = .ok d)
    (hok : Transits py policy d cur target actor reason → ∀ event, event.pathwayId = p →
      Solo py order A G Q (f target) (w.commit p target event))
    (herr : ¬ (Transits py policy d cur target actor reason ∧ Sound A) → ∀ e, Q (.error e) w) :
    Solo py order A G Q (transition py policy p target actor reason >>= f) w := by
  unfold transition
  split_ifs with hrun
  · exact herr (fun h => h.1.plain hrun) _
  · have hassoc : (do
        let current ← Db.getState p
        let definition ← Db.getDefinition p
        Prog.ofExcept (ensureTransition current target)
        Prog.ofExcept (authorizeTransition definition current target actor)
        commit py policy p "state_transition" actor current target [("reason", .str reason)]
        return target : Db PathwayState) >>= f = (do
        let current ← Db.getState p
        let definition ← Db.getDefinition p
        Prog.ofExcept (ensureTransition current target)
        Prog.ofExcept (authorizeTransition definition current target actor)
        commit py policy p "state_transition" actor current target [("reason", .str reason)]
        f target) := by
      simp only [Prog.bind_eq, Prog.pure_eq, Prog.bind_assoc, Prog.bind]
    rw [hassoc]
    refine solo_checked hs hd (fun hedge hauth => ?_) fun h =>
      herr fun ht => h ⟨ht.1.edge, ht.1.authority⟩
    refine solo_commit hs (fun event hevent =>
      hok ⟨hrun, hedge, hauth, hevent.recordable⟩ event hevent.pathwayId) fun h =>
      herr fun ht => h ⟨ht.1.record, ht.2⟩

/-! ### The ledger -/

/-- The ledger answers for some order of the matching rows. -/
theorem solo_begin {f : Bool × ExecutionAttemptRecord → Db β} {request : ExecutionRequest}
    (hfresh : ∀ ord fp rec, (∀ x ∈ order, ord = x) → fingerprint py request = .ok fp →
      (w.attempts.begin ord p request fp).1 = .ok (false, rec) → Solo py order A G Q (f (false, rec))
        (w.withAttempts (w.attempts.insert request.attemptId (Ledger.startedRow p request fp))))
    (hreplay : ∀ ord fp rec, (∀ x ∈ order, ord = x) → fingerprint py request = .ok fp →
      (w.attempts.begin ord p request fp).1 = .ok (true, rec) →
      A (.begin p request fp (.ok (true, rec))) → Solo py order A G Q (f (true, rec)) w)
    (herr : ∀ e, (fingerprint py request = .error e ∨ ∃ ord fp, (∀ x ∈ order, ord = x) ∧
      fingerprint py request = .ok fp ∧ (w.attempts.begin ord p request fp).1 = .error e) →
      Q (.error e) w) : Solo py order A G Q (begin py p request >>= f) w := by
  have hassoc : begin py p request >>= f = Prog.ofExcept (fingerprint py request) >>= fun fp =>
      (Prog.call (.begin p request fp) Prog.ofExcept : Db _) >>= f := by
    simp only [begin, Prog.bind_eq, Prog.bind_assoc]
  rw [hassoc]
  refine solo_ofExcept (fun fp hfp => ?_) fun e he => herr e (.inl he)
  refine solo_exec fun o r w' hexec ha => ⟨fun h => absurd h Bool.false_ne_true, ?_⟩
  obtain ⟨hr, hw⟩ := Prod.mk.inj hexec
  have hord : ∀ x ∈ order, order.getD o.rowOrder = x := fun x hx => by rw [Option.mem_def.mp hx]; rfl
  subst hw
  show Solo py order A G Q ((Prog.ofExcept r).bind f) _
  rcases r with e | ⟨_ | _, rec⟩
  · rw [Ledger.begin_error hr]
    exact herr e (.inr ⟨_, fp, hord, hfp, hr⟩)
  · rw [(Ledger.begin_fresh hr).2.2]
    exact hfresh _ fp rec hord hfp hr
  · rw [(Ledger.begin_replayed hr).2.2]
    exact hreplay _ fp rec hord hfp hr ha

/-- The outcome is stored in the row of the attempt, if there is one. -/
theorem solo_finish {f : ExecutionAttemptRecord → Db β} {x : String} {res : PersistedResult}
    (hok : ∀ row, w.attempts.lookup x = some row → Solo py order A G Q
      (f (Ledger.record x { row with outcome := some res })) (w.withAttempts (w.attempts.finish x res).2))
    (herr : w.attempts.lookup x = none → Q (.error (.keyError x)) w) :
    Solo py order A G Q (Db.finish x res >>= f) w := by
  refine solo_exec fun o r w' hexec _ => ⟨fun h => absurd h Bool.false_ne_true, ?_⟩
  obtain ⟨hr, hw⟩ := Prod.mk.inj hexec
  unfold Ledger.finish at hr hw
  subst hw
  cases hrow : w.attempts.lookup x with
  | none =>
    simp only [hrow] at hr ⊢
    subst hr
    exact herr hrow
  | some row =>
    have := hok row hrow
    simp only [Ledger.finish, hrow] at hr this ⊢
    subst hr
    exact this

theorem solo_tryFinish {f : Bool → Db β} {x : String} {result : ExecutionResult}
    (hok : ∀ row res, w.attempts.lookup x = some row → persistResult result = .ok res →
      Solo py order A G Q (f true) (w.withAttempts (w.attempts.finish x res).2))
    (hrejected : ∀ message, persistResult result = .error (.attemptResultPersistenceError message) →
      Solo py order A G Q (f false) w)
    (herr : (w.attempts.lookup x = none ∨ ∃ e, persistResult result = .error e ∧
      ∀ message, e ≠ .attemptResultPersistenceError message) → ∀ e, Q (.error e) w) :
    Solo py order A G Q (tryFinish x result >>= f) w := by
  unfold tryFinish finish
  cases hres : persistResult result with
  | error e =>
    cases e
    case attemptResultPersistenceError message => exact hrejected message hres
    all_goals exact herr (.inr ⟨_, hres, by simp⟩) _
  | ok res =>
    refine solo_exec fun o r w' hexec _ => ⟨fun h => absurd h Bool.false_ne_true, ?_⟩
    obtain ⟨hr, hw⟩ := Prod.mk.inj hexec
    subst hw
    cases hrow : w.attempts.lookup x with
    | none =>
      have hl : (w.attempts.finish x res).2 = w.attempts := by simp [Ledger.finish, hrow]
      have hnone : r = none := by rw [← hr]; simp [Ledger.finish, hrow]
      subst hnone
      rw [hl]
      exact herr (.inl hrow) _
    | some row =>
      have hsome : r = some (Ledger.record x { row with outcome := some res }) := by
        rw [← hr]
        simp [Ledger.finish, hrow]
      subst hsome
      exact hok row res hrow hres

/-- The fallback is stored, if there is a row. -/
theorem solo_tryMarkUnknown {f : Option String → Db β} {x reason : String}
    (h : ∀ failure : Option String, failure.isNone = (w.attempts.lookup x).isSome →
      Solo py order A G Q (f failure)
        (w.withAttempts (w.attempts.finish x (unknownResult reason)).2)) :
    Solo py order A G Q (tryMarkUnknown x reason >>= f) w := by
  refine solo_exec fun o r w' hexec _ => ⟨fun h => absurd h Bool.false_ne_true, ?_⟩
  obtain ⟨hr, hw⟩ := Prod.mk.inj hexec
  subst hw
  have hsome : r.isSome = (w.attempts.lookup x).isSome := by
    rw [← hr]
    unfold Ledger.finish
    cases w.attempts.lookup x <;> rfl
  cases r with
  | none => exact h (some "KeyError") hsome
  | some rec => exact h none hsome

theorem solo_discardStarted {f : Bool → Db β} {x : String}
    (h : Solo py order A G Q (f (w.attempts.discardStarted x).1)
      (w.withAttempts (w.attempts.discardStarted x).2)) :
    Solo py order A G Q (Db.discardStarted x >>= f) w :=
  solo_exec fun o r w' hexec _ => ⟨fun h => absurd h Bool.false_ne_true, by
    obtain ⟨rfl, rfl⟩ := Prod.mk.inj hexec
    exact h⟩

/-! ### Outside parties -/

theorem solo_invokeExecutor {f : ExecutorOutcome → Db β} {request : ExecutionRequest}
    (h : ∀ outcome, A (.invokeExecutor p request outcome) →
      G w (.invokeExecutor p request outcome) ∧ Solo py order A G Q (f outcome) w) :
    Solo py order A G Q (Db.invokeExecutor p request >>= f) w :=
  solo_exec fun o r w' hexec ha => by
    obtain ⟨-, rfl⟩ := Prod.mk.inj hexec
    exact ⟨fun _ => (h r ha).1, (h r ha).2⟩

theorem solo_observe {f : ObservationOutcome → Db β} {request : ExecutionRequest}
    {attempt : ExecutionAttemptRecord} (h : ∀ outcome, A (.observe request attempt outcome) →
      Solo py order A G Q (f outcome) w) :
    Solo py order A G Q (Db.observe request attempt >>= f) w :=
  solo_exec fun o r w' hexec ha => ⟨fun h => absurd h Bool.false_ne_true, by
    obtain ⟨-, rfl⟩ := Prod.mk.inj hexec
    exact h r ha⟩

end Rules

/-! ## A program on a given world -/

/-- Run a program alone: how it ends, and the world it leaves. -/
def runAlone {α : Type} (py : Platform) (order : Option RowOrder) (q : Db α) (os : List Oracle) (w : World) :
    Outcome PyError α × World :=
  let r := (database py order).run 0 () q os ⟨w, []⟩
  (r.1, r.2.world)

/-- A program run alone, while every answer of the environment satisfies `A`. -/
theorem runAlone_holds {α : Type} {py : Platform} {order : Option RowOrder} {A : Step → Prop}
    {Q : Except PyError α → World → Prop} {q : Db α} {w : World} {os : List Oracle}
    (h : Solo py order A (fun _ _ => True) Q q w)
    (hA : ∀ o ∈ os, ∀ op v, A (label op (exec py order op o v).1)) :
    Outcome.Holds Q (runAlone py order q os w).2 (runAlone py order q os w).1 := by
  obtain ⟨new, hnew, hanswers⟩ := (database py order).run_answers (t := 0) (c := ()) q os ⟨w, []⟩
  refine (Machine.ensures_run (h := (⟨w, []⟩ : Hist Unit World Step)) h hnew fun e he => ?_).2
  obtain ⟨op, o, ho, hstep⟩ := hanswers e he
  rw [hstep]
  exact hA o ho op e.before

/-! ## The last of the calls -/

section Last

variable {py : Platform} {order : Option RowOrder} {A : Step → Prop} {G : World → Step → Prop}
  {calls : List (Call × List Oracle)} {c : Call} {os : List Oracle}

theorem lastCall_hist (py : Platform) (order : Option RowOrder) (calls : List (Call × List Oracle))
    (c : Call) (os : List Oracle) :
    (lastCall py order calls c os).2 = sequential py order (calls ++ [(c, os)]) :=
  (sequential_append py order calls c os).symm

/-- The trace of the last call lies on top of the others. -/
theorem lastCall_trace (py : Platform) (order : Option RowOrder) (calls : List (Call × List Oracle))
    (c : Call) (os : List Oracle) : ∃ new, (lastCall py order calls c os).2.trace =
      new ++ (sequential py order calls).trace ∧ (∀ e ∈ new, e.tid = calls.length ∧ e.caller = c) ∧
      lastSteps py order calls c os = new.map Entry.step := by
  obtain ⟨new, hnew, htid⟩ := (database py order).run_trace (t := calls.length) (c := c) (c.body py) os
    (sequential py order calls)
  refine ⟨new, hnew, htid, ?_⟩
  have hold : own calls.length (sequential py order calls).trace = [] :=
    own_eq_nil fun e he => ((sequential_reach py order calls).2.2 e he).ne
  have hown : own calls.length new = new.map Entry.step := by
    refine (List.filterMap_congr fun e he => ?_).trans (congrFun List.filterMap_eq_map new)
    exact if_pos (htid e he).1
  rw [lastSteps, lastCall, hnew, own, List.filterMap_append]
  exact (congrArg₂ _ hown hold).trans (List.append_nil _)

/-- A moment of the last call: the steps before it were made alone, after the other calls. -/
theorem lastCall_moment {s : Step} (h : s ∈ lastSteps py order calls c os) : ∃ newer e mid,
    (lastCall py order calls c os).2.trace = newer ++ e :: (mid ++ (sequential py order calls).trace) ∧
    e.step = s ∧ e.caller = c ∧ Justified py c (mid.map Entry.step) s ∧
    Alone py order (sequential py order calls).world (mid.map Entry.step) e.before := by
  obtain ⟨new, hnew, htid, hsteps⟩ := lastCall_trace py order calls c os
  rw [hsteps] at h
  obtain ⟨e, he, rfl⟩ := List.mem_map.mp h
  obtain ⟨newer, mid, rfl⟩ := List.append_of_mem he
  obtain ⟨ht, hc⟩ := htid e he
  have hreach : Reach py order (newer ++ e :: (mid ++ (sequential py order calls).trace))
      (lastCall py order calls c os).2.world := by
    have := (sequential_reach py order (calls ++ [(c, os)])).1
    rw [← lastCall_hist, hnew] at this
    rwa [List.append_assoc] at this
  obtain ⟨hold, hj⟩ := hreach.of_append
  refine ⟨newer, e, mid, by rw [hnew, List.append_assoc]; rfl, rfl, hc, ?_, ?_⟩
  · have hown : own e.tid (mid ++ (sequential py order calls).trace) = mid.map Entry.step := by
      have hmid : own e.tid mid = mid.map Entry.step := by
        refine (List.filterMap_congr fun m hm => ?_).trans (congrFun List.filterMap_eq_map mid)
        exact if_pos ((htid m (by simp [hm])).1.trans ht.symm)
      rw [own, List.filterMap_append]
      refine (congrArg₂ _ hmid (own_eq_nil fun m hm => ?_)).trans (List.append_nil _)
      rw [ht]
      exact ((sequential_reach py order calls).2.2 m hm).ne
    rw [← hown, ← hc]
    exact hj
  · clear hj hreach hnew hsteps h he htid hc ht
    generalize e.before = w at hold
    induction mid generalizing w with
    | nil => exact (sequential_reach py order calls).1.unique hold
    | cons m mid ih =>
      obtain ⟨hbefore, -, ha, rfl⟩ := hold.of_cons
      exact ⟨m.before, ih _ hbefore, ha, rfl⟩

/-- The end of a call whose method returns its value as a `CallResult`. -/
def Wraps {α : Type} (f : α → CallResult) (Q : Except PyError α → World → Prop) :
    Except PyError CallResult → World → Prop
  | .ok r, w => ∃ a, r = f a ∧ Q (.ok a) w
  | .error e, w => Q (.error e) w

/-- What the program of the last call ensures, in an environment whose steps satisfy `A`. -/
theorem solo_lastCall {Q : Except PyError CallResult → World → Prop}
    (h : Solo py order A G Q (c.body py) (sequential py order calls).world)
    (hA : ∀ s ∈ lastSteps py order calls c os, A s) :
    (∀ e ∈ (lastCall py order calls c os).2.trace, e.tid = calls.length → e.step.outward = true →
      G e.before e.step) ∧
    Outcome.Holds Q (lastCall py order calls c os).2.world (lastCall py order calls c os).1 := by
  obtain ⟨new, hnew, -, hsteps⟩ := lastCall_trace py order calls c os
  have hrun := Machine.ensures_run (t := calls.length) (c := c) h hnew fun e he =>
    hA _ (hsteps ▸ List.mem_map_of_mem he)
  refine ⟨fun e he ht => ?_, hrun.2⟩
  rw [hnew] at he
  rcases List.mem_append.mp he with he | he
  · exact hrun.1 e he
  · exact absurd ht ((sequential_reach py order calls).2.2 e he).ne

/-- **The last call of a run**, in an environment whose steps satisfy `A`. -/
theorem solo_last {α : Type} {Q : Except PyError α → World → Prop} {f : α → CallResult} {q : Db α}
    (hbody : c.body py = (do return f (← q)))
    (h : Solo py order A G Q q (sequential py order calls).world)
    (hA : ∀ s ∈ lastSteps py order calls c os, A s) :
    (∀ e ∈ (lastCall py order calls c os).2.trace, e.tid = calls.length → e.step.outward = true →
      G e.before e.step) ∧
    Outcome.Holds (Wraps f Q) (lastCall py order calls c os).2.world
      (lastCall py order calls c os).1 := by
  refine solo_lastCall ?_ hA
  rw [hbody]
  exact solo_seq h (fun a w' ha => solo_pure ⟨a, rfl, ha⟩) fun e w' he => he

/-- The steps of the last call are answered by its environment. -/
theorem lastSteps_answered {s : Step} (h : s ∈ lastSteps py order calls c os) :
    ∃ op, ∃ o ∈ os, ∃ w, s = label op (exec py order op o w).1 := by
  obtain ⟨new, hnew, hanswers⟩ := (database py order).run_answers (t := calls.length) (c := c)
    (c.body py) os (sequential py order calls)
  obtain ⟨e, he, ht, rfl⟩ := mem_own.mp h
  rw [lastCall, hnew] at he
  rcases List.mem_append.mp he with he | he
  · obtain ⟨op, o, ho, hlabel⟩ := hanswers e he
    exact ⟨op, o, ho, e.before, hlabel⟩
  · exact absurd ht ((sequential_reach py order calls).2.2 e he).ne

theorem lastSteps_rpe {outcome x : RpeOutcome} (hos : ∀ o ∈ os, o.rpe = outcome) {d : PathwayDefinition}
    (h : Step.evaluateRpe d x ∈ lastSteps py order calls c os) : x = outcome := by
  obtain ⟨op, o, ho, w, hlabel⟩ := lastSteps_answered h
  cases op
  case evaluateRpe d' =>
    obtain ⟨-, rfl⟩ := Step.evaluateRpe.inj hlabel
    exact hos o ho
  all_goals cases hlabel

theorem lastSteps_executor {outcome x : ExecutorOutcome} (hos : ∀ o ∈ os, o.executor = outcome)
    {p : String} {request : ExecutionRequest}
    (h : Step.invokeExecutor p request x ∈ lastSteps py order calls c os) : x = outcome := by
  obtain ⟨op, o, ho, w, hlabel⟩ := lastSteps_answered h
  cases op
  case invokeExecutor q r =>
    obtain ⟨-, -, rfl⟩ := Step.invokeExecutor.inj hlabel
    exact hos o ho
  all_goals cases hlabel

theorem lastSteps_observation {outcome x : ObservationOutcome} (hos : ∀ o ∈ os, o.observation = outcome)
    {request : ExecutionRequest} {rec : ExecutionAttemptRecord}
    (h : Step.observe request rec x ∈ lastSteps py order calls c os) : x = outcome := by
  obtain ⟨op, o, ho, w, hlabel⟩ := lastSteps_answered h
  cases op
  case observe r a =>
    obtain ⟨-, -, rfl⟩ := Step.observe.inj hlabel
    exact hos o ho
  all_goals cases hlabel

end Last

end Rpr
