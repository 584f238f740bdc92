import PathwayRuntime.Result.Atomic

/-!
# Reconciliation with and without a runtime

* `reconcileStartedAttempt`: the helper that classifies an attempt in the ledger alone.
* `standaloneRows`, `runtimeRows`: the ledger the helper and `reconcile` leave.
* **`standalone_agrees_iff`**: when they leave the same rows.
* `standalone_differs`: a request without an attempt.
-/

set_option autoImplicit false

namespace Rpr

open Resume

/-- `reconcile_started_attempt`. -/
def reconcileStartedAttempt (py : Platform) (pathwayId : String) (request : ExecutionRequest) :
    Db ExecutionResult := do
  let (replayed, attempt) ← begin py pathwayId request
  if !replayed ∨ attempt.outcome.isSome then
    Prog.raise (.valueError "reconciliation requires an unresolved persisted attempt")
  else match ← Db.observe request attempt with
    | .raised typeName => Prog.raise (.foreign typeName)
    | .returned observed => do
      let _ ← finish request.attemptId observed.result
      return observed.result

/-- Both ledgers have the same rows. -/
def SameRows (l l' : Ledger) : Prop := ∀ x, l.lookup x = l'.lookup x

/-! ## What each of them leaves -/

/-- The ledger after a verified observation. -/
def classifiedRows (request : ExecutionRequest) (observed : ReconciliationResult) (l : Ledger) : Ledger :=
  match persistResult observed.result with
  | .error (.attemptResultPersistenceError _) =>
    (l.finish request.attemptId (unknownResult reconciliationRejected)).2
  | .error _ => l
  | .ok res => (l.finish request.attemptId res).2

section Effects

variable (py : Platform) (ord : RowOrder) (p : String) (request : ExecutionRequest)
  (observed : ReconciliationResult) (l : Ledger)

/-- The ledger after the helper observed this. -/
def standaloneRows : Ledger :=
  match fingerprint py request with
  | .error _ => l
  | .ok fp => match l.begin ord p request fp with
    | (.error _, _) => l
    | (.ok (false, _), fresh) => fresh
    | (.ok (true, _), _) => match persistResult observed.result with
      | .error _ => l
      | .ok res => (l.finish request.attemptId res).2

/-- The ledger after the runtime observed this on an unknown pathway. -/
def runtimeRows : Ledger :=
  match fingerprint py request with
  | .error _ => l
  | .ok fp => match l.begin ord p request fp with
    | (.error _, _) => l
    | (.ok (false, _), fresh) => (fresh.discardStarted request.attemptId).2
    | (.ok (true, _), _) =>
      if observed.status = .unresolved then l else classifiedRows request observed l

end Effects

section Alone

variable {py : Platform} {ord : RowOrder} {A : Step → Prop} {policy : RedactionPolicy} {w : World}
  {p actor : String} {request : ExecutionRequest} {observed : ReconciliationResult}

/-- The row the lookup finds, if any, has no stored result. -/
def Unfinished (w : World) (ord : RowOrder) (p : String) (request : ExecutionRequest) : Prop :=
  ∀ rec, w.attempts.matching ord p request = some rec → rec.outcome = none

theorem begin_eq {fp : String} {answer : Except PyError (Bool × ExecutionAttemptRecord)} {l : Ledger}
    (h : (w.attempts.begin ord p request fp).1 = answer) (hl : (w.attempts.begin ord p request fp).2 = l) :
    w.attempts.begin ord p request fp = (answer, l) :=
  Prod.ext h hl

/-- **The helper alone.** -/
theorem solo_reconcileStartedAttempt (hopen : Unfinished w ord p request)
    (hobserved : ∀ rec x, A (.observe request rec x) → x = .returned observed) :
    Solo py (some ord) A (fun _ _ => True)
      (fun _ w' => w'.attempts = standaloneRows py ord p request observed w.attempts)
      (reconcileStartedAttempt py p request) w := by
  unfold reconcileStartedAttempt standaloneRows
  refine solo_begin (fun ord' fp rec hord hfp hbegin => ?_) (fun ord' fp rec hord hfp hbegin _ => ?_)
    fun e he => ?_
  · obtain rfl := hord ord rfl
    dsimp only
    rw [if_pos (by simp)]
    refine solo_raise ?_
    rw [hfp]
    dsimp only
    rw [begin_eq hbegin (Ledger.begin_fresh hbegin).2.2]
    rfl
  · obtain rfl := hord ord rfl
    have hnone := hopen rec (Ledger.begin_replayed hbegin).1
    dsimp only
    rw [if_neg (by simp [hnone])]
    refine solo_observe fun x ha => ?_
    obtain rfl := hobserved rec x ha
    rw [hfp]
    dsimp only
    rw [begin_eq hbegin rfl]
    dsimp only
    unfold finish
    simp only [Prog.bind_eq, Prog.bind_assoc]
    refine solo_ofExcept (fun res hres => ?_) fun e he => ?_
    · rw [hres]
      refine solo_finish (fun row hrow => solo_pure rfl) fun hnone => ?_
      simp [Ledger.finish, hnone]
    · rw [he]
  · rcases he with he | ⟨ord', fp, hord, hfp, hbegin⟩
    · rw [he]
    · obtain rfl := hord ord rfl
      rw [hfp]
      dsimp only
      rw [begin_eq hbegin rfl]

theorem solo_persistReconciliationResult_rows :
    Solo py (some ord) A (fun _ _ => True)
      (fun _ w' => w'.attempts = classifiedRows request observed w.attempts ∧ w'.state p = w.state p)
      (persistReconciliationResult py policy p request actor observed.result) w := by
  unfold persistReconciliationResult classifiedRows
  refine solo_tryFinish (fun row res _ hres => ?_) (fun message hres => ?_) fun h _ => ?_
  · rw [hres]
    exact solo_pure ⟨rfl, rfl⟩
  · rw [if_neg (by decide), hres]
    refine solo_tryMarkUnknown fun failure _ => ?_
    exact solo_record (fun _ _ => trivial) (fun _ _ => solo_pure ⟨rfl, rfl⟩) fun _ _ => ⟨rfl, rfl⟩
  · refine ⟨?_, rfl⟩
    rcases h with hnone | ⟨e, he, hother⟩
    · cases hres : persistResult observed.result with
      | ok res => simp [Ledger.finish, hnone]
      | error e =>
        split <;> simp_all [Ledger.finish]
    · rw [he]
      split
      · rename_i message heq
        exact absurd (Except.error.inj heq) (hother message)
      · rfl
      · rename_i heq
        cases heq

/-- The classification of a verified observation: moving the pathway does not touch the ledger. -/
theorem solo_classified_rows {s : PathwayState} (hs : w.state p = some s) :
    Solo py (some ord) A (fun _ _ => True)
      (fun _ w' => w'.attempts = classifiedRows request observed w.attempts) (do
        if ← persistReconciliationResult py policy p request actor observed.result then
          finishReconciliationPathway py policy p request actor observed.result false
          return observed.result
        else
          return ⟨.writeStatusUnknown, [], none, some reconciliationRejected⟩) w := by
  refine solo_seq solo_persistReconciliationResult_rows (fun stored w₁ h => ?_) fun e w' h => h.1
  cases stored with
  | true =>
    refine solo_seq (solo_finishReconciliationPathway (h.2.trans hs)) (fun u w' h' => ?_) fun e w' h' => ?_
    · exact solo_pure (h'.1.attempts.trans h.1)
    · rw [h'.1]
      exact h.1
  | false => exact solo_pure h.1

/-- **`reconcile` alone, on an unknown pathway.** -/
theorem solo_reconcile_rows (hadmits : ReconcileAdmits py w p actor .writeStatusUnknown)
    (hopen : Unfinished w ord p request)
    (hobserved : ∀ rec x, A (.observe request rec x) → x = .returned observed) :
    Solo py (some ord) A (fun _ _ => True)
      (fun _ w' => w'.attempts = runtimeRows py ord p request observed w.attempts)
      (reconcile py policy p request actor) w := by
  unfold reconcile
  refine solo_seq solo_admitReconciliation (fun u w₀ h => ?_) fun e w' h => ?_
  swap
  · exact absurd hadmits (h.2 _)
  obtain ⟨rfl, -⟩ := h
  refine solo_begin (fun ord' fp rec hord hfp hbegin => ?_) (fun ord' fp rec hord hfp hbegin _ => ?_)
    fun e he => ?_
  · obtain rfl := hord ord rfl
    dsimp only
    rw [if_pos (by decide)]
    refine solo_discardStarted (solo_raise ?_)
    rw [runtimeRows, hfp]
    dsimp only
    rw [begin_eq hbegin (Ledger.begin_fresh hbegin).2.2]
    rfl
  · obtain rfl := hord ord rfl
    have hfinal : persistedFinal rec = .ok none := by
      rw [persistedFinal, hopen rec (Ledger.begin_replayed hbegin).1]
    have hrows : runtimeRows py ord' p request observed w₀.attempts =
        if observed.status = .unresolved then w₀.attempts else classifiedRows request observed w₀.attempts := by
      rw [runtimeRows, hfp]
      dsimp only
      rw [begin_eq hbegin rfl]
    dsimp only
    rw [if_neg (by decide), hfinal]
    refine solo_ofExcept (fun final h => ?_) fun e he => by cases he
    obtain rfl := Except.ok.inj h
    refine solo_observe fun x ha => ?_
    obtain rfl := hobserved rec x ha
    dsimp only
    by_cases hunresolved : observed.status = .unresolved
    · rw [if_pos hunresolved] at hrows ⊢
      refine solo_record (fun _ _ => trivial) (fun _ _ => solo_pure ?_) fun _ _ => ?_
      all_goals exact hrows.symm
    · rw [if_neg hunresolved] at hrows ⊢
      exact Machine.Ensures.mono (solo_classified_rows hadmits.state) fun x w' hx => hx.trans hrows.symm
  · rw [runtimeRows]
    rcases he with he | ⟨ord', fp, hord, hfp, hbegin⟩
    · rw [he]
    · obtain rfl := hord ord rfl
      rw [hfp]
      dsimp only
      rw [begin_eq hbegin rfl]

end Alone

/-! ## When they leave the same rows -/

section Agreement

variable {py : Platform} {ord : RowOrder} {policy : RedactionPolicy} {w : World} {p actor : String}
  {request : ExecutionRequest} {observed : ReconciliationResult} {os os' : List Oracle}

theorem sameRows_iff_untouched {l : Ledger} : SameRows l w.attempts ↔ Untouched w (w.withAttempts l) :=
  ⟨fun h => ⟨h, fun _ => rfl, rfl⟩, fun h => h.rows⟩

theorem SameRows.refl (l : Ledger) : SameRows l l := fun _ => rfl

theorem SameRows.comm {l l' : Ledger} : SameRows l l' ↔ SameRows l' l :=
  ⟨fun h x => (h x).symm, fun h x => (h x).symm⟩

/-- Storing a result changes nothing when the row of the attempt, if any, holds it already. -/
theorem sameRows_finish {x : String} {res : PersistedResult} :
    SameRows (w.attempts.finish x res).2 w.attempts ↔
      ∀ row, w.attempts.lookup x = some row → row.outcome = some res := by
  rw [sameRows_iff_untouched]
  cases hrow : w.attempts.lookup x with
  | none =>
    have hsame : (w.attempts.finish x res).2 = w.attempts := by simp [Ledger.finish, hrow]
    rw [hsame]
    exact iff_of_true (.refl w) fun row h => by cases h
  | some row => simpa using untouched_finish hrow

variable (py ord w p request observed) in
/-- The lookup finds a row, and what one of the two stores in the row of the attempt is there
already or stored by the other. -/
def Alike : Prop :=
  ∀ fp, fingerprint py request = .ok fp → w.attempts.matching ord p request ≠ none ∧
    ∀ rec, (w.attempts.begin ord p request fp).1 = .ok (true, rec) →
      ∀ row, w.attempts.lookup request.attemptId = some row →
        (∀ res, persistResult observed.result = .ok res → observed.status = .unresolved →
          row.outcome = some res) ∧
        ∀ message, persistResult observed.result = .error (.attemptResultPersistenceError message) →
          observed.status ≠ .unresolved → row.outcome = some (unknownResult reconciliationRejected)

theorem sameRows_iff_alike :
    SameRows (standaloneRows py ord p request observed w.attempts)
      (runtimeRows py ord p request observed w.attempts) ↔ Alike py ord w p request observed := by
  unfold standaloneRows runtimeRows Alike
  cases hfp : fingerprint py request with
  | error e => exact iff_of_true (fun _ => rfl) fun fp h => by cases h
  | ok fp =>
    simp only [Except.ok.injEq, forall_eq']
    rcases hbegin : (w.attempts.begin ord p request fp).1 with e | ⟨_ | _, rec⟩
    · have hsome : w.attempts.matching ord p request ≠ none := fun hnone => by
        simp [Ledger.begin, hnone] at hbegin
      rw [begin_eq hbegin rfl]
      exact iff_of_true (fun _ => rfl) ⟨hsome, fun rec h => by cases h⟩
    · -- The helper leaves the fresh row, the runtime takes it back.
      obtain ⟨hnone, -, hinsert⟩ := Ledger.begin_fresh hbegin
      rw [begin_eq hbegin hinsert]
      refine iff_of_false (fun h => ?_) fun h => h.1 hnone
      have hlookup := h request.attemptId
      have hback := (@untouched_discarded _ _ (Ledger.startedRow p request fp)
        (Ledger.matching_eq_none hnone) rfl).rows request.attemptId
      rw [World.attempts_withAttempts] at hback
      dsimp only at hlookup
      rw [hback, Ledger.matching_eq_none hnone, AList.lookup_insert] at hlookup
      cases hlookup
    · have hsome : w.attempts.matching ord p request ≠ none := by
        rw [(Ledger.begin_replayed hbegin).1]
        simp
      rw [begin_eq hbegin rfl]
      simp only [hsome, ne_eq, not_false_eq_true, true_and, Except.ok.injEq, Prod.mk.injEq, forall_eq']
      by_cases hunresolved : observed.status = .unresolved
      · rw [if_pos hunresolved]
        cases hres : persistResult observed.result with
        | error e => simpa [hunresolved] using SameRows.refl w.attempts
        | ok res => simpa [hunresolved] using sameRows_finish
      · rw [if_neg hunresolved, classifiedRows]
        cases hres : persistResult observed.result with
        | ok res => simpa [hunresolved] using SameRows.refl (w.attempts.finish request.attemptId res).2
        | error e =>
          cases e
          case attemptResultPersistenceError message =>
            simpa [hunresolved, SameRows.comm] using sameRows_finish
          all_goals simpa [hunresolved] using SameRows.refl w.attempts

end Agreement

/-- The helper and the runtime reconcile one request on the same databases, on an unknown pathway, for
an attempt without a stored result. The strategy observes the same, and neither is cut short. -/
structure BothReconcile (py : Platform) (ord : RowOrder) (policy : RedactionPolicy) (w : World)
    (p actor : String) (request : ExecutionRequest) (observed : ReconciliationResult)
    (os os' : List Oracle) : Prop where
  admits : ReconcileAdmits py w p actor .writeStatusUnknown
  unfinished : Unfinished w ord p request
  observes : ∀ o ∈ os ++ os', o.observation = .returned observed
  standalone : (runAlone py (some ord) (reconcileStartedAttempt py p request) os w).1.ended = true
  runtime : (runAlone py (some ord) (reconcile py policy p request actor) os' w).1.ended = true

/-- **When the helper and the runtime leave the same rows.** -/
theorem standalone_agrees_iff (py : Platform) (ord : RowOrder) (policy : RedactionPolicy) (w : World)
    (p actor : String) (request : ExecutionRequest) (observed : ReconciliationResult) (os os' : List Oracle)
    (h : BothReconcile py ord policy w p actor request observed os os') :
    SameRows (runAlone py (some ord) (reconcileStartedAttempt py p request) os w).2.attempts
      (runAlone py (some ord) (reconcile py policy p request actor) os' w).2.attempts ↔
        Alike py ord w p request observed := by
  let A : Step → Prop := fun s => ∀ rec x, s = .observe request rec x → x = .returned observed
  have hanswer : ∀ o ∈ os ++ os', ∀ op v, A (label op (exec py (some ord) op o v).1) := by
    intro o ho op v rec x hlabel
    cases op
    case observe r a =>
      obtain ⟨-, -, rfl⟩ := Step.observe.inj hlabel
      exact h.observes o ho
    all_goals cases hlabel
  have hends : ∀ {l : Ledger} {r : Outcome PyError ExecutionResult × World},
      Outcome.Holds (fun _ w' => w'.attempts = l) r.2 r.1 → r.1.ended = true → r.2.attempts = l := by
    rintro l ⟨out, w'⟩ hholds hended
    cases out with
    | crashed => cases hended
    | returned _ | raised _ => exact hholds
  have hsolo : Solo py (some ord) A (fun _ _ => True) _ (reconcile py policy p request actor) w :=
    solo_reconcile_rows h.admits h.unfinished fun rec x ha => ha rec x rfl
  have hstandalone := hends (runAlone_holds (A := A)
    (solo_reconcileStartedAttempt h.unfinished fun rec x ha => ha rec x rfl)
    fun o ho => hanswer o (List.mem_append_left _ ho)) h.standalone
  have hruntime := hends (runAlone_holds hsolo fun o ho => hanswer o (List.mem_append_right _ ho)) h.runtime
  rw [hstandalone, hruntime]
  exact sameRows_iff_alike

/-- The execution of `a` crashes before its executor is called, and is called again. -/
def startedA : List (Call × List Oracle) := approvedCalls ++
  [(⟨.default, .execute "p" requestA "executor"⟩, List.replicate 9 {}),
    (Method.execute "p" requestA "executor").answered {}]

/-- The attempt `a` is started, and its pathway is unknown. -/
def startedWorld : World := (sequential .sample none startedA).world

/-- The write of the request was applied. -/
def applied : List Oracle := List.replicate 40 { observation := .returned ⟨.verifiedApplied, [], none⟩ }

theorem bothReconcile_started {request : ExecutionRequest}
    (hrun : (startedWorld.attempts.matching .attemptIdFirst "p" request).all (·.outcome.isNone) = true ∧
      (runAlone .sample (some .attemptIdFirst) (reconcileStartedAttempt .sample "p" request) applied
        startedWorld).1.ended = true ∧
      (runAlone .sample (some .attemptIdFirst) (reconcile .sample .default "p" request "auditor") applied
        startedWorld).1.ended = true) :
    BothReconcile .sample .attemptIdFirst .default startedWorld "p" "auditor" request
      ⟨.verifiedApplied, [], none⟩ applied applied where
  admits := by
    have hstart : startedWorld.state "p" = some .writeStatusUnknown ∧
        ((startedWorld.getDefinition .sample "p").toOption.any fun d =>
          (authorizeReconciliationAccess d "auditor").toOption.isSome) = true := by
      decide +kernel
    refine ⟨?_, hstart.1, by decide⟩
    cases hd : startedWorld.getDefinition .sample "p" with
    | error e => rw [hd] at hstart; exact absurd hstart.2 (by simp [Except.toOption])
    | ok d =>
      refine ⟨d, rfl, ?_⟩
      rw [hd] at hstart
      cases ha : authorizeReconciliationAccess d "auditor" with
      | error e => simp [Except.toOption, ha] at hstart
      | ok u => rfl
  unfinished := fun rec hrec => by
    have := hrun.1
    rw [hrec] at this
    simpa using this
  observes := by simp [applied]
  standalone := hrun.2.1
  runtime := hrun.2.2

theorem standalone_agrees_started :
    SameRows (runAlone .sample (some .attemptIdFirst) (reconcileStartedAttempt .sample "p" requestA) applied
        startedWorld).2.attempts
      (runAlone .sample (some .attemptIdFirst) (reconcile .sample .default "p" requestA "auditor") applied
        startedWorld).2.attempts ↔
      Alike .sample .attemptIdFirst startedWorld "p" requestA ⟨.verifiedApplied, [], none⟩ :=
  standalone_agrees_iff .sample .attemptIdFirst .default startedWorld "p" "auditor" requestA _ _ _
    (bothReconcile_started (by decide +kernel))

/-- Without an attempt the helper leaves a started row, the runtime none. -/
theorem standalone_differs : ¬ ∀ (py : Platform) (ord : RowOrder) (policy : RedactionPolicy) (w : World)
    (p actor : String) (request : ExecutionRequest) (observed : ReconciliationResult) (os os' : List Oracle),
    BothReconcile py ord policy w p actor request observed os os' →
      SameRows (runAlone py (some ord) (reconcileStartedAttempt py p request) os w).2.attempts
        (runAlone py (some ord) (reconcile py policy p request actor) os' w).2.attempts := by
  intro h
  have hsame := h .sample .attemptIdFirst .default startedWorld "p" "auditor" requestB _ _ _
    (bothReconcile_started (by decide +kernel)) "b"
  have hstatus := congrArg (Option.map AttemptRow.status) hsame
  revert hstatus
  decide +kernel

end Rpr
