import PathwayRuntime.Resume.Reads
import PathwayRuntime.Result.Replayed

/-!
# Reconciling again

* `Concluded`: the one row the request matches holds a final result, and the pathway is where it leads.
* `reads_reconcile`: a reconciliation of a concluded request only reads, and returns that result.
* `concluded_of_returned`: a reconciliation that returned leaves the request concluded.
* **`reconcile_idempotent`**: in runs in which the other calls leave the row and the state alone.
-/

set_option autoImplicit false

namespace Rpr

open Resume

/-- The one row that the request matches, the state of the pathway, and its definition. -/
structure Concluded (p : String) (request : ExecutionRequest) (rec : ExecutionAttemptRecord)
    (target : PathwayState) (d : PathwayDefinition) (w : World) : Prop where
  row : ∀ a, w.attempts.Matches p request a ↔ a = rec
  state : w.state p = some target
  definition : w.definitionJson p = some d.toDict
  keys : w.attempts.KeysUnique

/-- The step asks the strategy. -/
def Step.observes : Step → Bool
  | .observe .. => true
  | _ => false

section Reads

variable {py : Platform} {order : Option RowOrder} {policy : RedactionPolicy} {p actor fp : String}
  {request : ExecutionRequest} {rec : ExecutionAttemptRecord} {r : ExecutionResult} {d : PathwayDefinition}
  {w : World}

theorem Concluded.getDefinition {target : PathwayState} (h : Concluded p request rec target d w) :
    w.getDefinition py p = .ok d := by
  unfold World.getDefinition
  simp only [h.definition, PathwayDefinition.fromDict_toDict]

theorem Concluded.getState {target : PathwayState} (h : Concluded p request rec target d w) :
    w.getState p = .ok target := World.getState_ok.mpr h.state

/-- Whichever row the database returns, it is the one row. -/
theorem Concluded.begin {target : PathwayState} (h : Concluded p request rec target d w)
    (hrec : ¬ Ledger.Foreign p request fp rec) (ord : RowOrder) :
    w.attempts.begin ord p request fp = (.ok (true, rec), w.attempts) := by
  have hmatching : w.attempts.matching ord p request = some rec := by
    cases hm : w.attempts.matching ord p request with
    | some a => rw [(h.row a).mp ((Ledger.matches_iff_matching h.keys).mpr ⟨ord, hm⟩)]
    | none =>
      obtain ⟨hx, hk⟩ := Ledger.matching_none hm
      rcases ((h.row rec).mpr rfl).cases h.keys with hget | hget
      · rw [hx] at hget
        cases hget
      · rw [hk] at hget
        cases hget
  have hanswer : (w.attempts.begin ord p request fp).1 = .ok (true, rec) := by
    rw [Ledger.begin_eq_answer hmatching, Ledger.answer, if_neg hrec]
  exact Prod.ext hanswer (Ledger.begin_replayed hanswer).2.2

variable (py order p request rec d) in
/-- The program only reads while the request is concluded, asks no strategy, and ends in `Q`. -/
def Rereads {α : Type} (target : PathwayState) (Q : Except PyError α → Prop) (q : Db α) : Prop :=
  (database py order).Reads (Concluded p request rec target d) (fun s => s.observes = false) Q q

section Rules

variable {α : Type} {target : PathwayState} {Q : Except PyError α → Prop}

theorem rereads_getDefinition {f : PathwayDefinition → Db α} (h : Rereads py order p request rec d target Q (f d)) :
    Rereads py order p request rec d target Q (Db.getDefinition p >>= f) := by
  intro o w hw
  have hread : ((database py order).exec (.getDefinition p) o w).1 = .ok d := hw.getDefinition
  refine ⟨rfl, rfl, ?_⟩
  rw [hread]
  exact h

theorem rereads_getState {f : PathwayState → Db α} (h : Rereads py order p request rec d target Q (f target)) :
    Rereads py order p request rec d target Q (Db.getState p >>= f) := by
  intro o w hw
  have hread : ((database py order).exec (.getState p) o w).1 = .ok target := hw.getState
  refine ⟨rfl, rfl, ?_⟩
  rw [hread]
  exact h

theorem rereads_ofExcept {β : Type} {x : Except PyError β} {f : β → Db α}
    (hok : ∀ b, x = .ok b → Rereads py order p request rec d target Q (f b))
    (herr : ∀ e, x = .error e → Q (.error e)) :
    Rereads py order p request rec d target Q (Prog.ofExcept x >>= f) := by
  cases x with
  | ok b => exact hok b rfl
  | error e => exact herr e rfl

theorem rereads_begin {f : Bool × ExecutionAttemptRecord → Db α} (hfp : fingerprint py request = .ok fp)
    (hrec : ¬ Ledger.Foreign p request fp rec) (h : Rereads py order p request rec d target Q (f (true, rec))) :
    Rereads py order p request rec d target Q (begin py p request >>= f) := by
  unfold begin
  rw [hfp]
  intro o w hw
  have hbegin := hw.begin hrec (order.getD o.rowOrder)
  have hread : ((database py order).exec (.begin p request fp) o w).1 = .ok (true, rec) :=
    congrArg Prod.fst hbegin
  refine ⟨congrArg w.withAttempts (congrArg Prod.snd hbegin), ?_, ?_⟩
  · rfl
  · rw [hread]
    exact h

end Rules

/-- **A reconciliation of a concluded request only reads.** It returns the stored result; it raises only
if its actor lacks the authority. -/
theorem reads_reconcile (hfp : fingerprint py request = .ok fp) (hrec : ¬ Ledger.Foreign p request fp rec)
    (hfinal : persistedFinal rec = .ok (some r)) :
    Rereads py order p request rec d r.reconciledTarget
      (fun x => match x with
        | .ok r' => r' = r
        | .error _ => authorizeReconciliationAccess d actor ≠ .ok ())
      (reconcile py policy p request actor) := by
  have hreconcilable : r.reconciledTarget ∈ reconcilableStates := by
    unfold ExecutionResult.reconciledTarget
    split_ifs <;> decide
  have hadmit : Rereads py order p request rec d r.reconciledTarget
      (fun x => ∀ e, x = .error e → authorizeReconciliationAccess d actor ≠ .ok ())
      (admitReconciliation p actor) := by
    refine rereads_getDefinition (rereads_ofExcept (fun _ _ => rereads_getState ?_) fun e he e' _ => ?_)
    · rw [if_neg (not_not.mpr hreconcilable)]
      exact fun _ h => by cases h
    · rw [he]
      exact fun h => by cases h
  -- The pathway is already there: nothing is committed.
  have hthere : Rereads py order p request rec d r.reconciledTarget (fun x => x.toBool = true)
      (finishReconciliationPathway py policy p request actor r true) := by
    refine rereads_getState ?_
    rw [if_pos (by rfl)]
    exact rfl
  refine hadmit.bind (fun _ _ => rereads_begin hfp hrec ?_) fun e he => he e rfl
  dsimp only
  rw [if_neg (by decide), hfinal]
  exact hthere.bind (fun _ _ => rfl) fun _ h => by cases h

end Reads

/-! ## Where a reconciliation arrives -/

/-- The step finds the pathway in the state, or moves it there. -/
def Step.Arrives (p : String) (target : PathwayState) (s : Step) : Prop :=
  s = .getState p (.ok target) ∨ ∃ cur event, s = .transitionWithEvent p cur target event (.ok ())

section Arrives

variable {py : Platform} {order : Option RowOrder} {policy : RedactionPolicy} {p actor : String}
  {request : ExecutionRequest} {result : ExecutionResult} {target : PathwayState} {own : Own} {s : Step}
  {w : World}

theorem Step.Arrives.state (h : s.Arrives p target) (ha : s.Answers py order w) :
    (s.effect w).state p = some target := by
  rcases h with rfl | ⟨cur, event, rfl⟩
  · exact World.getState_ok.mp ha.symm
  · have hcur := (World.transitionWithEvent_ok ha.symm).1
    refine (World.state_commit _ _ _ _ _).trans ?_
    rw [if_pos rfl, hcur]
    rfl

/-- The newest step found the pathway there or moved it there. -/
def Arrived (p : String) (target : PathwayState) (own : Own) : Prop :=
  ∃ s rest, own = s :: rest ∧ s.Arrives p target

theorem arrived_commit {ty : String} {cur : PathwayState} {payload : List (String × PyValue)} :
    Prog.Traced label (fun _ _ => True) (fun x own' => x.toBool = true → Arrived p target own')
      (commit py policy p ty actor cur target payload) own := by
  refine Prog.Traced.bind (Prog.Traced.anyway _ own) (fun event own' _ r => ⟨trivial, ?_⟩) fun _ _ _ h => by cases h
  cases r with
  | error e => exact fun h => by cases h
  | ok u => exact fun _ => ⟨_, own', rfl, .inr ⟨cur, event, rfl⟩⟩

theorem arrived_finishReconciliation {replayed : Bool} :
    Prog.Traced label (fun _ _ => True)
      (fun x own' => x.toBool = true → Arrived p result.reconciledTarget own')
      (finishReconciliationPathway py policy p request actor result replayed) own := by
  intro r
  refine ⟨trivial, ?_⟩
  cases r with
  | error e => exact fun h => by cases h
  | ok cur =>
    show Prog.Traced _ _ _ (if cur = result.reconciledTarget then return () else _) _
    by_cases hthere : cur = result.reconciledTarget
    · rw [if_pos hthere]
      exact fun _ => ⟨_, own, rfl, .inl (by rw [← hthere]; rfl)⟩
    · rw [if_neg hthere]
      by_cases hunknown : cur ≠ .writeStatusUnknown
      · rw [if_pos hunknown]
        exact fun h => by cases h
      · rw [if_neg hunknown]
        exact Prog.Traced.ofExcept_bind (fun _ => arrived_commit) fun _ h => by cases h

/-- A reconciliation that returned a final result ended where it leads. -/
theorem arrived_reconcile : Prog.Traced label (fun _ _ => True)
    (fun x own' => ∀ r, x = .ok r → r.status ≠ .writeStatusUnknown → Arrived p r.reconciledTarget own')
    (reconcile py policy p request actor) [] := by
  have hend : ∀ (r : ExecutionResult) (replayed : Bool) own, Prog.Traced label (fun _ _ => True)
      (fun x own' => ∀ r, x = .ok r → r.status ≠ .writeStatusUnknown → Arrived p r.reconciledTarget own')
      (finishReconciliationPathway py policy p request actor r replayed >>= fun _ => pure r) own := by
    intro r replayed own
    refine Prog.Traced.bind arrived_finishReconciliation (fun _ own' h r' hr' _ => ?_) fun _ _ _ _ h => by cases h
    obtain rfl := Except.ok.inj hr'
    exact h rfl
  refine Prog.Traced.bind (Prog.Traced.anyway _ _) (fun _ own₁ _ => ?_) fun _ _ _ _ h => by cases h
  refine Prog.Traced.bind (Prog.Traced.anyway _ _) (fun found own₂ _ => ?_) fun _ _ _ _ h => by cases h
  obtain ⟨replayed, rec⟩ := found
  cases replayed with
  | false => exact fun _ => ⟨trivial, fun _ h => by cases h⟩
  | true =>
    dsimp only
    rw [if_neg (by decide)]
    refine Prog.Traced.bind (Prog.Traced.anyway _ _) (fun final own₃ _ => ?_) fun _ _ _ _ h => by cases h
    cases final with
    | some persisted => exact hend persisted true own₃
    | none =>
      intro outcome
      refine ⟨trivial, ?_⟩
      cases outcome with
      | raised typeName => exact fun _ h => by cases h
      | returned observed =>
        dsimp only [Prog.bind]
        by_cases hunresolved : observed.status = .unresolved
        · rw [if_pos hunresolved]
          refine Prog.Traced.bind (Prog.Traced.anyway _ _) (fun _ _ _ r hr hne => ?_) fun _ _ _ _ h => by cases h
          obtain rfl := Except.ok.inj hr
          exact absurd (ReconciliationResult.status_result hunresolved) hne
        · rw [if_neg hunresolved]
          refine Prog.Traced.bind (Prog.Traced.anyway _ _) (fun stored own₄ _ => ?_) fun _ _ _ _ h => by cases h
          cases stored with
          | true => exact hend _ false own₄
          | false =>
            intro r hr hne
            obtain rfl := Except.ok.inj hr
            exact absurd rfl hne

end Arrives

/-! ## Uninterrupted reconciliations -/

/-- The step asks the ledger for the row of a request. -/
def Step.asks : Step → Bool
  | .begin .. => true
  | _ => false

/-- A call with a number from `n` on that reconciles the same request. -/
def Again (n : ℕ) (p : String) (request : ExecutionRequest) (e : Record) : Prop :=
  n ≤ e.tid ∧ ∃ actor, e.caller.method = .reconcile p request actor

/-- After the step the same rows match the request, and the pathway is in the same state. -/
structure LeavesAlone (p : String) (request : ExecutionRequest) (e : Record) : Prop where
  rows : (e.step.effect e.before).attempts.Matches p request = e.before.attempts.Matches p request
  state : (e.step.effect e.before).state p = e.before.state p

/-- When call `t` asked the ledger, at most one row matched; and since then the calls other than `t`,
and other than those that reconcile again, have left the rows and the state alone. -/
structure Uninterrupted (t n : ℕ) (p : String) (request : ExecutionRequest) (tr : List Record) : Prop where
  one : ∀ b ∈ tr, b.tid = t → b.step.asks = true → ∀ a a', b.before.attempts.Matches p request a →
    b.before.attempts.Matches p request a' → a = a'
  kept : ∀ newer b older, tr = newer ++ b :: older → b.tid = t → b.step.asks = true →
    ∀ e ∈ newer, e.tid ≠ t → ¬ Again n p request e → LeavesAlone p request e

section Returned

variable {py : Platform} {order : Option RowOrder} {tr newer older : List Record} {p fp : String}
  {request : ExecutionRequest} {rec : ExecutionAttemptRecord} {w w₀ : World} {t n : ℕ}

theorem Step.effect_attempts {s : Step} (h : s.weighty = false) : (s.effect w).attempts = w.attempts := by
  cases s
  case createOrReplayPathway d fp st key r => rcases r with err | ⟨_ | _, st'⟩ <;> rfl
  case transitionWithEvent q cur target e r =>
    rcases r with err | ⟨⟩
    · rfl
    · exact World.attempts_commit _ _ _ _
  case appendEvent e r => rcases r with err | ⟨⟩ <;> rfl
  case begin | finish | discardStarted => cases h
  all_goals rfl

/-- What every step leaves alone is what it was. -/
theorem view_kept {β : Type} (f : World → β) (h : Reach py order (newer ++ older) w)
    (h₀ : Reach py order older w₀) (hkept : ∀ e ∈ newer, f (e.step.effect e.before) = f e.before) :
    f w = f w₀ := by
  induction newer generalizing w with
  | nil => rw [h.unique h₀]
  | cons e newer ih =>
    obtain ⟨hbefore, -, -, rfl⟩ := h.of_cons
    exact (hkept e List.mem_cons_self).trans (ih hbefore fun e' he' => hkept e' (List.mem_cons_of_mem _ he'))

/-- The rows that match a request, while its call makes light steps only. -/
theorem matches_kept (h : Reach py order (newer ++ older) w) (h₀ : Reach py order older w₀)
    (hlight : ∀ e ∈ newer, e.tid = t → (e.step.effect e.before).attempts = e.before.attempts)
    (hothers : ∀ e ∈ newer, e.tid ≠ t → LeavesAlone p request e) :
    w.attempts.Matches p request = w₀.attempts.Matches p request := by
  refine view_kept (fun w => w.attempts.Matches p request) h h₀ fun e he => ?_
  by_cases ht : e.tid = t
  · show (e.step.effect e.before).attempts.Matches p request = _
    rw [hlight e he ht]
  · exact (hothers e he ht).rows

/-- After the outcome of the only matching row is stored, that row with the outcome is the only one. -/
theorem matches_finish {l : Ledger} {res : PersistedResult} {fin : ExecutionAttemptRecord}
    (hfin : (l.finish request.attemptId res).1 = some fin) (h : ∀ a, l.Matches p request a ↔ a = rec)
    (a : ExecutionAttemptRecord) : (l.finish request.attemptId res).2.Matches p request a ↔
      a = { rec with outcome := some res } := by
  obtain ⟨row, hrow⟩ := Ledger.finish_eq_some hfin
  obtain rfl : ⟨row, request.attemptId⟩ = rec :=
    (h ⟨row, request.attemptId⟩).mp ⟨Ledger.get_self hrow, .inl rfl⟩
  have hlook : (l.finish request.attemptId res).2.lookup request.attemptId =
      some { row with outcome := some res } := by
    rw [Ledger.lookup_finish, if_pos rfl, hrow]
    rfl
  constructor
  · intro ha
    obtain ⟨hstored, -⟩ := Ledger.get_eq_some.mp ha.stored
    by_cases hid : a.attemptId = request.attemptId
    · rw [hid, hlook] at hstored
      obtain ⟨arow, aid⟩ := a
      obtain rfl : aid = request.attemptId := hid
      obtain rfl : _ = arow := Option.some.inj hstored
      rfl
    · -- Another row is as it was, and did not match.
      rw [Ledger.lookup_finish, if_neg hid] at hstored
      exact absurd (congrArg ExecutionAttemptRecord.attemptId ((h a).mp ⟨Ledger.get_self hstored, ha.found⟩)) hid
  · rintro rfl
    exact ⟨Ledger.get_self hlook, .inl rfl⟩

/-- The row that `begin` returned is the only one that matches, when at most one did. -/
theorem matches_begin {b : Record} (h : Reach py order (newer ++ b :: older) w)
    (hbegin : b.step = .begin p request fp (.ok (true, rec)))
    (hone : ∀ a a', b.before.attempts.Matches p request a → b.before.attempts.Matches p request a' → a = a') :
    ∃ w₀, Reach py order (b :: older) w₀ ∧ (∀ a, w₀.attempts.Matches p request a ↔ a = rec) ∧
      ¬ Ledger.Foreign p request fp rec := by
  obtain ⟨w₀, hw₀⟩ := h.suffix
  obtain ⟨hbefore, -, ha, rfl⟩ := hw₀.of_cons
  rw [hbegin] at ha
  obtain ⟨ord, -, ha⟩ := ha
  have hmatching := (Ledger.begin_replayed ha.symm).1
  have hrec := (Ledger.matches_iff_matching (keysUnique_of_reach hbefore)).mpr ⟨ord, hmatching⟩
  refine ⟨_, hw₀, fun a => ?_, fun hforeign => ?_⟩
  · rw [hbegin]
    exact ⟨fun h => hone a rec h hrec, fun h => h ▸ hrec⟩
  · rw [Ledger.begin_eq_answer hmatching, Ledger.answer, if_pos hforeign] at ha
    cases ha

variable {r : ExecutionResult}

/-- The row that a final result was found in or stored in is the one that matches at the end. -/
theorem row_of_steps (h : Reach py order tr w)
    (hsteps : ReconcileSteps py p request r (weighty (own t tr))) (hfinal : r.status ≠ .writeStatusUnknown)
    (hd : r.storedValue.Everywhere PyValue.DistinctKeys)
    (hone : ∀ b ∈ tr, b.tid = t → b.step.asks = true → ∀ a a', b.before.attempts.Matches p request a →
      b.before.attempts.Matches p request a' → a = a')
    (hkept : ∀ newer b older, tr = newer ++ b :: older → b.tid = t → b.step.asks = true →
      ∀ e ∈ newer, e.tid ≠ t → LeavesAlone p request e) :
    ∃ fp rec r₁, fingerprint py request = .ok fp ∧ ¬ Ledger.Foreign p request fp rec ∧
      persistedFinal rec = .ok (some r₁) ∧ r.Same r₁ ∧ ∀ a, w.attempts.Matches p request a ↔ a = rec := by
  -- Its own steps that are not weighty keep the ledger, and so does the question to the strategy.
  have hlight : ∀ {tr : List Record} {kept : Own}, weighty (own t tr) = kept →
      (∀ s ∈ kept, ∀ w, (s.effect w).attempts = w.attempts) → ∀ e ∈ tr, e.tid = t →
        (e.step.effect e.before).attempts = e.before.attempts := by
    intro tr kept htr hkept e he ht
    cases hweighty : e.step.weighty with
    | false => exact Step.effect_attempts hweighty
    | true => exact hkept _ (htr ▸ mem_weighty.mpr ⟨mem_own.mpr ⟨e, he, ht, rfl⟩, hweighty⟩) _
  generalize hown : weighty (own t tr) = kept at hsteps
  cases hsteps with
  | @replayed fp rec hfp hpersisted =>
    obtain ⟨newer, b, older, rfl, hb, hbegin, hnewer, -⟩ := weighty_split (a := []) hown
    have hasks : b.step.asks = true := by rw [hbegin]; rfl
    obtain ⟨w₀, hw₀, hrow, hforeign⟩ := matches_begin h hbegin (hone b (by simp) hb hasks)
    obtain ⟨stored, -, hr, -⟩ := persistedFinal_eq_some.mp hpersisted
    refine ⟨fp, rec, r, hfp, hforeign, hpersisted, resultFromAttempt_self hr, ?_⟩
    rw [matches_kept h hw₀ (hlight hnewer (by simp)) (hkept newer b older rfl hb hasks)]
    exact hrow
  | @observed fp rec fin outcome res hfp hres =>
    obtain ⟨newer, b, older, rfl, hb, hbegin, hnewer, -⟩ := weighty_split (a := [_, _]) hown
    have hasks : b.step.asks = true := by rw [hbegin]; rfl
    have hothers := hkept newer b older rfl hb hasks
    obtain ⟨w₀, hw₀, hrow, hforeign⟩ := matches_begin h hbegin (hone b (by simp) hb hasks)
    obtain ⟨late, f, early, rfl, hf, hfinish, hlate, hearly⟩ := weighty_split (a := []) hnewer
    rw [List.append_assoc] at h
    obtain ⟨w₁, hw₁⟩ := h.suffix
    obtain ⟨hbefore, -, ha, rfl⟩ := hw₁.of_cons
    have hmatch : f.before.attempts.Matches p request = w₀.attempts.Matches p request :=
      matches_kept hbefore hw₀ (hlight hearly (by simp [Step.effect]))
        fun e he => hothers e (List.mem_append_right _ (List.mem_cons_of_mem _ he))
    rw [hfinish] at ha
    obtain ⟨hlisted, hu, -⟩ := persistResult_listed hd hres
    obtain ⟨r₁, hr₁, hsame⟩ := resultFromAttempt_same hu hlisted (.inl rfl)
    refine ⟨fp, { rec with outcome := some res }, r₁, hfp, hforeign, ?_, hsame, ?_⟩
    · exact persistedFinal_eq_some.mpr ⟨res, rfl, hr₁, by rw [hsame.status]; exact hfinal⟩
    · rw [matches_kept h hw₁ (hlight hlate (by simp)) fun e he => hothers e (List.mem_append_left _ he), hfinish]
      exact matches_finish ha.symm fun a => by rw [hmatch]; exact hrow a
  | uncertain hunknown => exact absurd hunknown hfinal

/-- A reconciliation that returned a final result has asked the ledger. -/
theorem asked_of_steps (hsteps : ReconcileSteps py p request r (weighty (own t tr)))
    (hfinal : r.status ≠ .writeStatusUnknown) : ∃ b ∈ tr, b.tid = t ∧ b.step.asks = true := by
  have hasks : ∃ s ∈ weighty (own t tr), s.asks = true := by
    generalize weighty (own t tr) = kept at hsteps
    cases hsteps with
    | replayed => exact ⟨_, List.mem_cons_self, rfl⟩
    | observed => exact ⟨_, List.mem_cons_of_mem _ (List.mem_cons_of_mem _ List.mem_cons_self), rfl⟩
    | uncertain hunknown => exact absurd hunknown hfinal
  obtain ⟨s, hs, hasks⟩ := hasks
  obtain ⟨b, hb, ht, rfl⟩ := mem_own.mp (mem_weighty.mp hs).1
  exact ⟨b, hb, ht, hasks⟩

/-- The pathway is where the reconciliation arrived. -/
theorem state_of_steps {target : PathwayState} (h : Reach py order tr w)
    (harrived : Arrived p target (own t tr)) (hasked : ∃ b ∈ tr, b.tid = t ∧ b.step.asks = true)
    (hkept : ∀ newer b older, tr = newer ++ b :: older → b.tid = t → b.step.asks = true →
      ∀ e ∈ newer, e.tid ≠ t → LeavesAlone p request e) : w.state p = some target := by
  obtain ⟨s, rest, hown, harrives⟩ := harrived
  obtain ⟨newer, e, older, rfl, -, hstep, hnewer, -⟩ := own_split [] hown
  -- It arrived after it had asked.
  obtain ⟨mid, b, oldest, rfl, hb, hasks⟩ : ∃ mid b oldest, older = mid ++ b :: oldest ∧ b.tid = t ∧
      b.step.asks = true := by
    obtain ⟨b, hmem, hb, hasks⟩ := hasked
    rcases List.mem_append.mp hmem with hmem | hmem
    · have := mem_own.mpr ⟨b, hmem, hb, rfl⟩
      rw [hnewer] at this
      exact absurd this List.not_mem_nil
    · rcases List.mem_cons.mp hmem with rfl | hmem
      · rcases hstep ▸ harrives with h | ⟨_, _, h⟩ <;> rw [h] at hasks <;> cases hasks
      · obtain ⟨mid, oldest, rfl⟩ := List.append_of_mem hmem
        exact ⟨mid, b, oldest, rfl, hb, hasks⟩
  obtain ⟨w₀, hw₀⟩ := h.suffix
  obtain ⟨-, -, ha, rfl⟩ := hw₀.of_cons
  have hstate := (hstep ▸ harrives).state ha
  refine (view_kept (fun w => w.state p) h hw₀ fun e' he' => ?_).trans hstate
  refine (hkept (newer ++ e :: mid) b oldest (by simp) hb hasks e' (List.mem_append_left _ he') fun ht => ?_).state
  have := mem_own.mpr ⟨e', he', ht, rfl⟩
  rw [hnewer] at this
  exact absurd this List.not_mem_nil

end Returned

/-! ## Reconciling again -/

section Idempotent

variable {py : Platform} {order : Option RowOrder} {calls : List (Call × List Oracle)}
  {acts acts' : List (Machine.Action Call Oracle)} {t : ℕ} {p actor : String} {request : ExecutionRequest}
  {r : ExecutionResult}

/-- An uninterrupted reconciliation that returned a final result leaves the request concluded. -/
theorem concluded_of_returned (h : Returned py order calls acts t (.reconcile p request actor) (.executed r))
    (hfinal : r.status ≠ .writeStatusUnknown) (hd : r.storedValue.Everywhere PyValue.DistinctKeys)
    (hrun : Uninterrupted t (underway py order calls acts).next p request (interleaved py order calls acts).trace) :
    ∃ fp rec r₁ d, fingerprint py request = .ok fp ∧ ¬ Ledger.Foreign p request fp rec ∧
      persistedFinal rec = .ok (some r₁) ∧ r.Same r₁ ∧
      Concluded p request rec r₁.reconciledTarget d (interleaved py order calls acts).world := by
  have hreach := interleaved_reach py order calls acts
  have hresumes := underway_resumes py order calls acts
  have hsteps := reconciled_steps h
  have hkept : ∀ newer b older, (interleaved py order calls acts).trace = newer ++ b :: older → b.tid = t →
      b.step.asks = true → ∀ e ∈ newer, e.tid ≠ t → LeavesAlone p request e := by
    intro newer b older htr hb hasks e he ht
    refine hrun.kept newer b older htr hb hasks e he ht fun hagain => ?_
    exact absurd hagain.1 (hresumes.fresh e (htr ▸ List.mem_append_left _ he)).not_ge
  obtain ⟨fp, rec, r₁, hfp, hforeign, hpersisted, hsame, hrow⟩ :=
    row_of_steps hreach hsteps hfinal hd hrun.one hkept
  have harrived : Arrived p r.reconciledTarget (own t (interleaved py order calls acts).trace) := by
    obtain ⟨policy, ht⟩ := h
    have htraced : Prog.Traced label (fun _ _ => True) (fun x own' => ∀ r, x = .ok (.executed r) →
        r.status ≠ .writeStatusUnknown → Arrived p r.reconciledTarget own')
        (Call.body py ⟨policy, .reconcile p request actor⟩) [] := by
      refine Prog.Traced.bind arrived_reconcile (fun r' own' h' r hr => ?_) fun _ _ _ _ h => by cases h
      obtain rfl := CallResult.executed.inj (Except.ok.inj hr)
      exact h' r' rfl
    exact hresumes.returned ht htraced r rfl hfinal
  have hstate := state_of_steps hreach harrived (asked_of_steps hsteps hfinal) hkept
  have htarget : r₁.reconciledTarget = r.reconciledTarget := by
    rw [ExecutionResult.reconciledTarget, hsame.status]
    rfl
  obtain ⟨j, hj⟩ := Option.isSome_iff_exists.mp (World.state_isSome_iff.mp (by rw [hstate]; rfl))
  obtain ⟨d, -, rfl⟩ := definition_stored hreach hj
  exact ⟨fp, rec, r₁, d, hfp, hforeign, hpersisted, hsame, hrow, htarget ▸ hstate, hj,
    keysUnique_of_reach hreach⟩

/-- A justified step that leaves the rows and the state alone leaves the request concluded. -/
theorem Concluded.step {tr : List Record} {e : Record} {rec : ExecutionAttemptRecord} {target : PathwayState}
    {d : PathwayDefinition} (h : Concluded p request rec target d e.before)
    (hj : Justified py e.caller (own e.tid tr) e.step) (ha : e.step.Answers py order e.before)
    (halone : LeavesAlone p request e) : Concluded p request rec target d (e.step.effect e.before) where
  row a := by
    rw [halone.rows]
    exact h.row a
  state := halone.state.trans h.state
  definition := definition_kept hj ha h.definition
  keys := keysUnique_effect h.keys ha

/-- How a call that reconciles again ends. -/
def Concludes (d : PathwayDefinition) (p : String) (request : ExecutionRequest) (r : ExecutionResult) (c : Call) :
    Except PyError CallResult → Prop
  | .ok x => x = .executed r
  | .error _ => ∀ actor, c.method = .reconcile p request actor → authorizeReconciliationAccess d actor ≠ .ok ()

/-- The calls started after `acts` that reconcile again: they return the same result, raise only without
the authority, leave the databases as they are, and do not ask their strategy. -/
structure Repeats (py : Platform) (order : Option RowOrder) (calls : List (Call × List Oracle))
    (acts acts' : List (Machine.Action Call Oracle)) (p : String) (request : ExecutionRequest)
    (r : ExecutionResult) : Prop where
  returns : ∀ t policy actor x, (underway py order calls acts).next ≤ t →
    (underway py order calls (acts ++ acts')).threads t = some (⟨policy, .reconcile p request actor⟩, .ret x) →
    ∃ r', x = .executed r' ∧ r.Same r'
  raises : ∀ t policy actor e d, (underway py order calls acts).next ≤ t →
    (underway py order calls (acts ++ acts')).threads t = some (⟨policy, .reconcile p request actor⟩, .raise e) →
    (interleaved py order calls (acts ++ acts')).world.getDefinition py p = .ok d →
    authorizeReconciliationAccess d actor ≠ .ok ()
  reads : ∀ e ∈ (interleaved py order calls (acts ++ acts')).trace,
    Again (underway py order calls acts).next p request e →
    e.step.effect e.before = e.before ∧ e.step.observes = false

/-- **Reconciliation is idempotent in uninterrupted runs**: in every interleaving in which, since the first
reconciliation asked the ledger, the other calls have left the row and the state alone. -/
theorem reconcile_idempotent (py : Platform) (order : Option RowOrder) (calls : List (Call × List Oracle))
    (acts acts' : List (Machine.Action Call Oracle)) (t : ℕ) (p actor : String) (request : ExecutionRequest)
    (r : ExecutionResult) (h : Returned py order calls acts t (.reconcile p request actor) (.executed r))
    (hfinal : r.status ≠ .writeStatusUnknown) (hd : r.storedValue.Everywhere PyValue.DistinctKeys)
    (hrun : Uninterrupted t (underway py order calls acts).next p request
      (interleaved py order calls (acts ++ acts')).trace) :
    Repeats py order calls acts acts' p request r := by
  have hresumes := underway_resumes py order calls acts
  have hreach := interleaved_reach py order calls (acts ++ acts')
  obtain ⟨new, hnew, hsilent⟩ := returned_newer h acts'
  obtain ⟨fp, rec, r₁, d, hfp, hforeign, hpersisted, hsame, hconcluded⟩ := concluded_of_returned h hfinal hd
    { one := fun b hb => hrun.one b (hnew ▸ List.mem_append_right _ hb)
      kept := fun newer b older htr hb hasks e he =>
        hrun.kept (new ++ newer) b older (by rw [hnew, htr, List.append_assoc]) hb hasks e
          (List.mem_append_right _ he) }
  obtain ⟨b, hb, ht, hasks⟩ := asked_of_steps (reconciled_steps h) hfinal
  obtain ⟨since, earlier, hsplit⟩ := List.append_of_mem hb
  have hbody : ∀ c : Call, (∃ a, c.method = .reconcile p request a) →
      (database py order).Reads (Concluded p request rec r₁.reconciledTarget d) (fun s => s.observes = false)
        (Concludes d p request r₁ c) (Call.body py c) := by
    rintro ⟨policy, m⟩ ⟨a, rfl⟩
    refine (reads_reconcile hfp hforeign hpersisted).bind (fun r' hr' => ?_) fun e he a' ha' => ?_
    · exact congrArg CallResult.executed hr'
    · obtain ⟨-, -, rfl⟩ := Method.reconcile.inj ha'
      exact he
  have hothers : ∀ newer e mid, (interleaved py order calls (acts ++ acts')).trace =
      newer ++ e :: (mid ++ (interleaved py order calls acts).trace) →
      Machine.Keeps Step.effect (Concluded p request rec r₁.reconciledTarget d)
        (underway py order calls acts).next (fun c => ∃ a, c.method = .reconcile p request a) e := by
    intro newer e mid htr hother hbefore
    obtain ⟨hj, ha⟩ : Justified py e.caller (own e.tid (mid ++ (interleaved py order calls acts).trace)) e.step ∧
        e.step.Answers py order e.before := by
      rw [htr] at hreach
      exact ⟨hreach.of_append.2, hreach.answers⟩
    -- The first call has returned: the step is not its own.
    have hne : e.tid ≠ t := by
      intro he
      have hmem : e ∈ new := by
        have happend : newer ++ e :: mid = new := by
          refine List.append_cancel_right (?_ : _ ++ (interleaved py order calls acts).trace = _)
          rw [← hnew, htr, List.append_assoc, List.cons_append]
        exact happend ▸ List.mem_append_right _ List.mem_cons_self
      have := mem_own.mpr ⟨e, hmem, he, rfl⟩
      rw [hsilent] at this
      exact absurd this List.not_mem_nil
    refine hbefore.step hj ha (hrun.kept (newer ++ e :: (mid ++ since)) b earlier ?_ ht hasks e (by simp) hne hother)
    rw [htr, hsplit, List.append_assoc, List.cons_append, List.append_assoc]
  have hstart : (underway py order calls acts).Quiet (database py order)
      (Concluded p request rec r₁.reconciledTarget d) (fun s => s.observes = false)
      (underway py order calls acts).next (fun c => ∃ a, c.method = .reconcile p request a)
      (Concludes d p request r₁) :=
    ⟨hconcluded, fun t' c q hq hn _ => absurd hn (hresumes.threads t' c q hq).1.not_ge⟩
  obtain ⟨hquiet, new', hnew', hharmless⟩ := Machine.schedule_quiet (exec_effect py order) hbody acts' hstart
    fun newer e mid htr => hothers newer e mid
      ((congrArg (fun pool : Machine.Pool .. => pool.hist.trace) underway_append).trans htr)
  rw [← underway_append] at hquiet hnew'
  refine ⟨fun t' policy actor' x ht' hq => ?_, fun t' policy actor' e d' ht' hq hd' => ?_, fun e he hagain => ?_⟩
  · exact ⟨r₁, hquiet.threads t' _ _ hq ht' ⟨actor', rfl⟩, hsame⟩
  · obtain rfl := Except.ok.inj (hquiet.world.getDefinition.symm.trans hd')
    exact hquiet.threads t' _ _ hq ht' ⟨actor', rfl⟩ actor' rfl
  · rcases List.mem_append.mp (hnew' ▸ he : e ∈ new' ++ (interleaved py order calls acts).trace) with he | he
    · exact hharmless e he hagain.1 hagain.2
    · exact absurd hagain.1 (hresumes.fresh e he).not_ge

end Idempotent

/-! ## A run that meets the condition, and one that does not -/

/-- The write has not been applied. -/
def notApplied : ReconciliationResult := ⟨.verifiedNotApplied, [], none⟩

/-- The program has returned the result of that observation. -/
def returnsNotApplied (x : Call × Db CallResult) : Bool :=
  match x.2 with
  | .ret (.executed ⟨.failed, [(.str (.utf8 "reconciliation"), .dict [])], some ⟨true, [], none⟩,
      some (.utf8 "verified_not_applied")⟩) => true
  | _ => false

theorem returnsNotApplied_eq_true (c : Call) (q : Db CallResult) (h : returnsNotApplied (c, q) = true) :
    q = .ret (.executed notApplied.result) := by
  unfold returnsNotApplied at h
  split at h
  · assumption
  · cases h

theorem notApplied_distinct : notApplied.result.storedValue.Everywhere PyValue.DistinctKeys := by
  simp [notApplied, ReconciliationResult.result, ExecutionResult.storedValue, readbackValue, PyValue.ofFields,
    PyValue.text, PyValue.optText, PyValue.Everywhere, PyValue.EverywhereFields, PyValue.DistinctKeys]

/-- The other authorised actor reconciles, with a strategy that would observe the write. -/
def reconcilingAgain : Call × List Oracle :=
  (Method.reconcile "p" requestA "repairer").answered { observation := .returned ⟨.verifiedApplied, [], none⟩ }

def onceReconciled : List (Machine.Action Call Oracle) := alone 2 (observing requestA notApplied)

/-- Two more calls. -/
def thriceReconciled : List (Machine.Action Call Oracle) :=
  onceReconciled ++ (alone 3 reconcilingAgain ++ alone 4 reconcilingAgain)

section

variable {py : Platform} {order : Option RowOrder} {calls : List (Call × List Oracle)}
  {acts acts' : List (Machine.Action Call Oracle)} {p : String} {request : ExecutionRequest} {l : Ledger}

/-- At most one row matches when the row of the attempt is the row of the key. -/
theorem matches_unique (hl : l.KeysUnique) (hids : (l.get request.attemptId).map (·.attemptId) =
    (l.byKey p request.idempotencyKey).map (·.attemptId)) (a a' : ExecutionAttemptRecord)
    (ha : l.Matches p request a) (ha' : l.Matches p request a') : a = a' := by
  have hid : ∀ {a}, l.Matches p request a → l.get request.attemptId = some a := by
    intro a ha
    rcases ha.cases hl with h | h
    · exact h
    · rw [h] at hids
      obtain ⟨a', hget, hid⟩ := Option.map_eq_some_iff.mp hids
      rw [← (Ledger.get_eq_some.mp hget).2, hid]
      exact ha.stored
  exact Option.some.inj ((hid ha).symm.trans (hid ha'))

theorem invoke_mem_alone {t : ℕ} {call : Call × List Oracle} {c : Call} (h : .invoke c ∈ alone t call) :
    c = call.1 := by
  rcases List.mem_cons.mp h with h | h
  · exact Machine.Action.invoke.inj h
  · obtain ⟨o, -, ho⟩ := List.mem_map.mp h
    cases ho

/-- After `acts` only calls that reconcile again are started: the new steps are theirs. -/
theorem again_of_invoked (hacts : ∀ c, .invoke c ∈ acts' → ∃ actor, c.method = .reconcile p request actor)
    {e : Record} (he : e ∈ (interleaved py order calls (acts ++ acts')).trace)
    (htid : (underway py order calls acts).next ≤ e.tid) :
    Again (underway py order calls acts).next p request e := by
  have hresumes := underway_resumes py order calls acts
  obtain ⟨new, hnew, hcallers⟩ : ∃ new, (interleaved py order calls (acts ++ acts')).trace =
      new ++ (interleaved py order calls acts).trace ∧ ∀ e ∈ new,
        (underway py order calls acts).next ≤ e.tid → ∃ actor, e.caller.method = .reconcile p request actor := by
    rw [show (interleaved py order calls (acts ++ acts')).trace = _ from
      congrArg (fun pool : Machine.Pool .. => pool.hist.trace) underway_append]
    exact Machine.schedule_trace (Q := fun t c => (underway py order calls acts).next ≤ t →
      ∃ actor, c.method = .reconcile p request actor) (fun c hc _ _ _ => hacts c hc)
      fun t c q hq hn => absurd hn (hresumes.threads t c q hq).1.not_ge
  rw [hnew] at he
  rcases List.mem_append.mp he with he | he
  · exact ⟨htid, hcallers e he htid⟩
  · exact absurd htid (hresumes.fresh e he).not_ge

end

theorem reconcile_idempotent_thrice : Repeats .sample none unknownCalls onceReconciled
    (alone 3 reconcilingAgain ++ alone 4 reconcilingAgain) "p" requestA notApplied.result := by
  have hrun : ((underway .sample none unknownCalls onceReconciled).threads 2).any returnsNotApplied = true ∧
      (underway .sample none unknownCalls onceReconciled).next = 3 ∧
      ((interleaved .sample none unknownCalls thriceReconciled).trace.map (·.tid)).Pairwise (· ≥ ·) ∧
      ∀ b ∈ (interleaved .sample none unknownCalls thriceReconciled).trace, b.tid = 2 → b.step.asks = true →
        (b.before.attempts.get requestA.attemptId).map (·.attemptId) =
          (b.before.attempts.byKey "p" requestA.idempotencyKey).map (·.attemptId) := by
    decide +kernel
  obtain ⟨hreturns, hnext, hserial, hrows⟩ := hrun
  have hreturned := returned_ended returnsNotApplied_eq_true hreturns
    (show onceReconciled = [] ++ alone 2 (observing requestA notApplied) from rfl) alone_steps rfl
  refine reconcile_idempotent .sample none unknownCalls onceReconciled _ 2 "p" "auditor" requestA
    notApplied.result hreturned (by decide) notApplied_distinct ⟨fun b hb ht hasks => ?_,
      fun newer b older htr ht _ e he hne hother => absurd ?_ hother⟩
  · obtain ⟨newer, older, htr⟩ := List.append_of_mem hb
    have hreach := interleaved_reach .sample none unknownCalls thriceReconciled
    rw [show (interleaved .sample none unknownCalls thriceReconciled).trace = _ from htr] at hreach
    exact matches_unique (keysUnique_of_reach hreach.of_append.1) (hrows b hb ht hasks)
  · have hle : 2 ≤ e.tid := by
      rw [show (interleaved .sample none unknownCalls thriceReconciled).trace = _ from htr, List.map_append,
        List.map_cons] at hserial
      exact ht ▸ (List.pairwise_append.mp hserial).2.2 e.tid (List.mem_map_of_mem he) b.tid List.mem_cons_self
    refine again_of_invoked (fun c hc => ?_) (htr ▸ List.mem_append_left _ he) ?_
    · rcases List.mem_append.mp hc with hc | hc <;> rw [invoke_mem_alone hc] <;> exact ⟨"repairer", rfl⟩
    · rw [hnext]
      omega

/-- An execution of `a` is dispatched; a second one finds its row and leaves the pathway unknown; while
a reconciliation stores that the write has not been applied, the first execution stores that it has. -/
def overtakenReconciliation : List (Machine.Action Call Oracle) :=
  .invoke ⟨.default, .execute "p" requestA "executor"⟩ :: List.replicate 9 (.step 1 {}) ++
  .invoke ⟨.default, .execute "p" requestA "executor"⟩ :: List.replicate 13 (.step 2 {}) ++
  .invoke (observing requestA notApplied).1 ::
    (List.replicate 5 (.step 3 { observation := .returned notApplied }) ++
      List.replicate 2 (.step 1 { executor := .returned verifiedResult }) ++ List.replicate 4 (.step 3 {}))

/-- The reconciliation that follows. -/
def thenAgain : List (Machine.Action Call Oracle) := overtakenReconciliation ++ alone 4 reconcilingAgain

/-- The program has raised. -/
def raisesError (x : Call × Db CallResult) : Bool :=
  match x.2 with
  | .raise _ => true
  | _ => false

theorem ok_of_toBool {α : Type} {x : Except PyError α} (h : x.toBool = true) : ∃ a, x = .ok a := by
  cases x with
  | ok a => exact ⟨a, rfl⟩
  | error e => cases h

theorem raisesError_eq_true {c : Call} {q : Db CallResult} (h : raisesError (c, q) = true) :
    ∃ e, q = .raise e := by
  cases q with
  | raise e => exact ⟨e, rfl⟩
  | ret a | call op k => cases h

/-- **Without the condition a reconciliation cannot be repeated**: it returned that the attempt failed,
and the next one, with no other operation on the pathway in between, raises. No call crashes. -/
theorem reconcile_not_idempotent : ¬ ∀ (py : Platform) (order : Option RowOrder)
    (calls : List (Call × List Oracle)) (acts acts' : List (Machine.Action Call Oracle)) (t : ℕ)
    (p actor : String) (request : ExecutionRequest) (r : ExecutionResult),
    Returned py order calls acts t (.reconcile p request actor) (.executed r) →
    r.status ≠ .writeStatusUnknown → r.storedValue.Everywhere PyValue.DistinctKeys →
    (∀ newer e older, (interleaved py order calls (acts ++ acts')).trace =
      newer ++ e :: (older ++ (interleaved py order calls acts).trace) →
      e.caller.method.pathwayId = p → Again (underway py order calls acts).next p request e) →
    Repeats py order calls acts acts' p request r := by
  intro h
  have hrun : ((underway .sample (some .attemptIdFirst) approvedCalls overtakenReconciliation).threads 3).any
        returnsNotApplied = true ∧
      (underway .sample (some .attemptIdFirst) approvedCalls overtakenReconciliation).next = 4 ∧
      ((underway .sample (some .attemptIdFirst) approvedCalls thenAgain).threads 4).any raisesError = true ∧
      ((interleaved .sample (some .attemptIdFirst) approvedCalls thenAgain).world.getDefinition .sample "p" >>=
        fun d => authorizeReconciliationAccess d "repairer").toBool = true ∧
      (interleaved .sample (some .attemptIdFirst) approvedCalls thenAgain).trace.length =
        4 + (interleaved .sample (some .attemptIdFirst) approvedCalls overtakenReconciliation).trace.length ∧
      ∀ e ∈ (interleaved .sample (some .attemptIdFirst) approvedCalls thenAgain).trace.take 4, e.tid = 4 := by
    decide +kernel
  obtain ⟨hreturns, hnext, hraises, hauthorized, hlength, htids⟩ := hrun
  have hreturned := returned_ended returnsNotApplied_eq_true hreturns
    (show overtakenReconciliation = _ ++ .invoke (observing requestA notApplied).1 :: _ from rfl)
    (by simp) (by decide +kernel)
  obtain ⟨q, hq⟩ := underway_invoked (show thenAgain = overtakenReconciliation ++ alone 4 reconcilingAgain from rfl)
    alone_steps hnext
  rw [hq] at hraises
  obtain ⟨e, rfl⟩ := raisesError_eq_true hraises
  obtain ⟨d, hd, hauth⟩ := except_bind_eq_ok.mp (ok_of_toBool hauthorized).choose_spec
  rw [show thenAgain = overtakenReconciliation ++ alone 4 reconcilingAgain from rfl] at hq hd hlength htids
  refine (h .sample (some .attemptIdFirst) approvedCalls overtakenReconciliation (alone 4 reconcilingAgain) 3 "p"
    "auditor" requestA notApplied.result hreturned (by decide) notApplied_distinct ?_).raises 4 _ "repairer" e d
    hnext.le hq hd hauth
  intro newer e older htr _
  refine again_of_invoked (fun c hc => ⟨"repairer", by rw [invoke_mem_alone hc]; rfl⟩)
    (htr ▸ List.mem_append_right _ List.mem_cons_self) ?_
  rw [hnext]
  refine (htids e ?_).ge
  have htake : (newer ++ e :: older).length = 4 := by
    rw [htr] at hlength
    simp only [List.length_append, List.length_cons] at hlength ⊢
    omega
  rw [htr.trans (List.append_assoc newer (e :: older) _).symm, ← htake, List.take_left]
  exact List.mem_append_right _ List.mem_cons_self

end Rpr
