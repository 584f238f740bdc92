import PathwayRuntime.Trace.Methods

/-!
# Reconciliations that raise

* `Untouched`: no row, no state and no event has changed.
* `Consults`, `Classifies`: when the strategy is asked, and what storing its observation needs.
* `solo_reconcile`: a reconciliation alone.
* **`reconcile_atomic`**: a reconciliation that raises leaves everything as it was exactly when its
  observation, once stored, can also be recorded and moves the pathway.
* `reconcile_torn`: an observation the ledger stores and the evidence log rejects.
-/

set_option autoImplicit false

namespace Rpr

open Resume

/-- No row, no state and no event has changed. -/
structure Untouched (w w' : World) : Prop where
  rows : ∀ x, w'.attempts.lookup x = w.attempts.lookup x
  states : ∀ p, w'.state p = w.state p
  events : w'.events = w.events

theorem Untouched.refl (w : World) : Untouched w w := ⟨fun _ => rfl, fun _ => rfl, rfl⟩

/-- Storing what is stored changes nothing; storing anything else does. -/
theorem untouched_finish {w : World} {x : String} {row : AttemptRow} {res : PersistedResult}
    (hrow : w.attempts.lookup x = some row) :
    Untouched w (w.withAttempts (w.attempts.finish x res).2) ↔ row.outcome = some res := by
  constructor
  · intro h
    have hx := h.rows x
    rw [World.attempts_withAttempts, Ledger.lookup_finish, if_pos rfl, hrow] at hx
    exact congrArg AttemptRow.outcome (Option.some.inj hx).symm
  · intro h
    refine ⟨fun y => ?_, fun _ => rfl, rfl⟩
    rw [World.attempts_withAttempts, Ledger.lookup_finish]
    split_ifs with hy
    · rw [hy, hrow, Option.map_some, ← h]
    · rfl

/-- A row that was inserted and discarded again leaves nothing. -/
theorem untouched_discarded {w : World} {x : String} {row : AttemptRow}
    (hnone : w.attempts.lookup x = none) (hout : row.outcome = none) :
    Untouched w ((w.withAttempts (w.attempts.insert x row)).withAttempts
      (Ledger.discardStarted (w.attempts.insert x row) x).2) := by
  have hlook : (w.attempts.insert x row).lookup x = some row := AList.lookup_insert _
  have hdiscard : (Ledger.discardStarted (w.attempts.insert x row) x).2 =
      (w.attempts.insert x row).erase x := by
    simp [Ledger.discardStarted, hlook, hout]
  refine ⟨fun y => ?_, fun _ => rfl, rfl⟩
  rw [World.attempts_withAttempts, hdiscard]
  by_cases hy : y = x
  · rw [hy, AList.lookup_erase, hnone]
  · rw [AList.lookup_erase_ne hy, AList.lookup_insert_ne hy]

/-- The reason stored when the ledger rejects an observation. -/
def reconciliationRejected : String :=
  "reconciliation_result_persistence_rejected:AttemptResultPersistenceError"

section Reconcile

variable {py : Platform} {order : Option RowOrder} {A : Step → Prop} {policy : RedactionPolicy}
  {w : World} {ord : RowOrder} {p actor : String} {request : ExecutionRequest}
  {rec : ExecutionAttemptRecord} {observed : ReconciliationResult}

/-- `reconcile` asks its strategy about this record. -/
structure Consults (py : Platform) (w : World) (ord : RowOrder) (p : String) (request : ExecutionRequest)
    (actor : String) (rec : ExecutionAttemptRecord) : Prop where
  admits : ∃ s, ReconcileAdmits py w p actor s
  found : ∃ fp, fingerprint py request = .ok fp ∧
    (w.attempts.begin ord p request fp).1 = .ok (true, rec)
  unsettled : persistedFinal rec = .ok none

/-- What an observation needs, once the row of the attempt stands for it: an event that can be
recorded, on a pathway the observation can close. -/
def Classifies (py : Platform) (policy : RedactionPolicy) (w : World) (p : String)
    (request : ExecutionRequest) (observed : ReconciliationResult) : Prop :=
  ∀ row, w.attempts.lookup request.attemptId = some row →
    (∀ res, persistResult observed.result = .ok res → row.outcome = some res ∨
      ∃ s, w.state p = some s ∧ ReconcileAccepted py policy request observed.result false s) ∧
    ∀ message, persistResult observed.result = .error (.attemptResultPersistenceError message) →
      row.outcome = some (unknownResult reconciliationRejected) ∨
        Recordable py policy (fallbackFields request reconciliationRejected none)

/-- Whatever the strategy observes can be classified as a whole. -/
def Whole (py : Platform) (policy : RedactionPolicy) (w : World) (ord : RowOrder) (p : String)
    (request : ExecutionRequest) (actor : String) (outcome : ObservationOutcome) : Prop :=
  ∀ rec observed, Consults py w ord p request actor rec → outcome = .returned observed →
    observed.status ≠ .unresolved → Classifies py policy w p request observed

/-- Where nothing is asked, everything is whole. -/
theorem whole_of_not {outcome : ObservationOutcome}
    (h : ∀ rec, ¬ Consults py w ord p request actor rec) :
    Whole py policy w ord p request actor outcome :=
  fun rec _ hrec => absurd hrec (h rec)

theorem classifies_none (h : w.attempts.lookup request.attemptId = none) :
    Classifies py policy w p request observed :=
  fun row hrow => absurd (h.symm.trans hrow) (by simp)

theorem classifies_stored {row : AttemptRow} {res : PersistedResult}
    (hrow : w.attempts.lookup request.attemptId = some row)
    (hres : persistResult observed.result = .ok res) :
    Classifies py policy w p request observed ↔ row.outcome = some res ∨
      ∃ s, w.state p = some s ∧ ReconcileAccepted py policy request observed.result false s := by
  refine ⟨fun h => (h row hrow).1 res hres, fun h row' hrow' => ?_⟩
  obtain rfl := Option.some.inj (hrow.symm.trans hrow')
  refine ⟨fun res' hres' => ?_, fun message herr => absurd (hres.symm.trans herr) (by simp)⟩
  obtain rfl := Except.ok.inj (hres.symm.trans hres')
  exact h

theorem classifies_rejected {row : AttemptRow} {message : String}
    (hrow : w.attempts.lookup request.attemptId = some row)
    (hres : persistResult observed.result = .error (.attemptResultPersistenceError message)) :
    Classifies py policy w p request observed ↔
      row.outcome = some (unknownResult reconciliationRejected) ∨
        Recordable py policy (fallbackFields request reconciliationRejected none) := by
  refine ⟨fun h => (h row hrow).2 message hres, fun h row' hrow' => ?_⟩
  obtain rfl := Option.some.inj (hrow.symm.trans hrow')
  exact ⟨fun res hok => absurd (hres.symm.trans hok) (by simp), fun _ _ => h⟩

/-- How a reconciliation that raises left the databases. -/
def RaisesIn (py : Platform) (policy : RedactionPolicy) (w : World) (p : String)
    (request : ExecutionRequest) (observed : ReconciliationResult) (w' : World) : Prop :=
  Untouched w w' ↔ Classifies py policy w p request observed

/-- Storing an observation, or its fallback. -/
theorem solo_persistReconciliationResult (hA : Sound A) :
    Solo py order A (fun _ _ => True) (Leaves (fun stored w' => (stored = true ∧ ∃ row res,
        w.attempts.lookup request.attemptId = some row ∧ persistResult observed.result = .ok res ∧
        w' = w.withAttempts (w.attempts.finish request.attemptId res).2) ∨
      (stored = false ∧ Classifies py policy w p request observed))
      (RaisesIn py policy w p request observed))
      (persistReconciliationResult py policy p request actor observed.result) w := by
  unfold persistReconciliationResult
  refine solo_tryFinish (fun row res hrow hres => ?_) (fun message hres => ?_) fun h e => ?_
  · exact solo_pure (.inl ⟨rfl, row, res, hrow, hres, rfl⟩)
  · rw [if_neg (by decide)]
    refine solo_tryMarkUnknown fun failure hfailure => ?_
    refine solo_record (fun _ _ => trivial) (fun event he => ?_) fun hfail e => ?_
    · refine solo_pure (.inr ⟨rfl, ?_⟩)
      cases hrow : w.attempts.lookup request.attemptId with
      | none => exact classifies_none hrow
      | some row =>
        rw [hrow] at hfailure
        obtain rfl := Option.isNone_iff_eq_none.mp hfailure
        exact (classifies_rejected hrow hres).mpr (.inr he.recordable)
    · cases hrow : w.attempts.lookup request.attemptId with
      | none =>
        have hsame : (w.attempts.finish request.attemptId (unknownResult reconciliationRejected)).2 =
            w.attempts := by
          simp [Ledger.finish, hrow]
        refine iff_of_true ?_ (classifies_none hrow)
        show Untouched w (w.withAttempts (w.attempts.finish request.attemptId
          (unknownResult reconciliationRejected)).2)
        rw [hsame]
        exact .refl w
      | some row =>
        rw [hrow] at hfailure
        obtain rfl := Option.isNone_iff_eq_none.mp hfailure
        refine (untouched_finish hrow).trans (.symm ((classifies_rejected hrow hres).trans ?_))
        exact or_iff_left fun hrecord => hfail ⟨hrecord, hA⟩
  · refine iff_of_true (.refl w) fun row hrow => ?_
    rcases h with hnone | ⟨e, he, hother⟩
    · exact absurd (hnone.symm.trans hrow) (by simp)
    · exact ⟨fun res hok => absurd (he.symm.trans hok) (by simp), fun message herr =>
        absurd (Except.error.inj (he.symm.trans herr)) (hother message)⟩

/-- The classification of an observation. -/
theorem solo_classified (hA : Sound A) {s : PathwayState} (hs : w.state p = some s) :
    Solo py order A (fun _ _ => True) (Leaves (fun _ _ => Classifies py policy w p request observed)
      (RaisesIn py policy w p request observed)) (do
        if ← persistReconciliationResult py policy p request actor observed.result then
          finishReconciliationPathway py policy p request actor observed.result false
          return observed.result
        else
          return ⟨.writeStatusUnknown, [], none, some reconciliationRejected⟩) w := by
  refine solo_seq (solo_persistReconciliationResult hA) (fun stored w₁ h => ?_) fun e w' h => h
  rcases h with ⟨rfl, row, res, hrow, hres, rfl⟩ | ⟨rfl, hclassifies⟩
  · rw [if_pos rfl]
    refine solo_seq (solo_finishReconciliationPathway (w := w.withAttempts _) hs) (fun u w' h => ?_)
      fun e w' h => ?_
    · exact solo_pure ((classifies_stored hrow hres).mpr (.inr ⟨s, hs, h.2⟩))
    · rw [h.1]
      refine (untouched_finish hrow).trans (.symm ((classifies_stored hrow hres).trans ?_))
      refine or_iff_left fun hacc => ?_
      obtain ⟨s', hs', hacc⟩ := hacc
      obtain rfl := Option.some.inj (hs.symm.trans hs')
      exact h.2 ⟨hacc, hA⟩
  · rw [if_neg (by decide)]
    exact solo_pure hclassifies

/-- How a reconciliation ends, for the row order its lookup used. -/
def Reconciles (py : Platform) (order : Option RowOrder) (policy : RedactionPolicy) (w : World)
    (p : String) (request : ExecutionRequest) (actor : String) (outcome : ObservationOutcome) :
    Except PyError ExecutionResult → World → Prop :=
  fun x w' => ∃ ord, (∀ o ∈ order, ord = o) ∧
    match x with
    | .ok _ => Whole py policy w ord p request actor outcome
    | .error _ => Untouched w w' ↔ Whole py policy w ord p request actor outcome

/-- **`reconcile` alone.** -/
theorem solo_reconcile {outcome : ObservationOutcome} (hA : Sound A)
    (houtcome : ∀ rec x, A (.observe request rec x) → x = outcome) :
    Solo py order A (fun _ _ => True) (Reconciles py order policy w p request actor outcome)
      (reconcile py policy p request actor) w := by
  have hdefault : ∀ o ∈ order, order.getD .attemptIdFirst = o := fun o ho => by
    rw [Option.mem_def.mp ho]
    rfl
  unfold reconcile
  refine solo_seq solo_admitReconciliation (fun u w₀ h => ?_) fun e w' h => ?_
  swap
  · obtain ⟨rfl, hno⟩ := h
    exact ⟨_, hdefault, iff_of_true (.refl _) (whole_of_not fun rec hrec => by
      obtain ⟨s, hs⟩ := hrec.admits
      exact hno s hs)⟩
  obtain ⟨rfl, s, hadmits⟩ := h
  refine solo_begin (fun ord fp rec hord hfp hbegin => ?_) (fun ord fp rec hord hfp hbegin _ => ?_)
    fun e he => ?_
  · -- A fresh row is taken back.
    have hno : ∀ rec, ¬ Consults py w₀ ord p request actor rec := fun rec' hrec => by
      obtain ⟨fp', hfp', hbegin'⟩ := hrec.found
      obtain rfl := Except.ok.inj (hfp.symm.trans hfp')
      exact absurd (hbegin.symm.trans hbegin') (by simp)
    have hnone := Ledger.matching_eq_none (Ledger.begin_fresh hbegin).1
    dsimp only
    rw [if_pos (by decide)]
    refine solo_discardStarted (solo_raise ⟨ord, hord, iff_of_true ?_ (whole_of_not hno)⟩)
    exact untouched_discarded hnone rfl
  · dsimp only
    rw [if_neg (by decide)]
    have hfound : ∀ rec', Consults py w₀ ord p request actor rec' → persistedFinal rec = .ok none := by
      intro rec' hrec
      obtain ⟨fp', hfp', hbegin'⟩ := hrec.found
      obtain rfl := Except.ok.inj (hfp.symm.trans hfp')
      obtain rfl := (Prod.mk.inj (Except.ok.inj (hbegin.symm.trans hbegin'))).2
      exact hrec.unsettled
    refine solo_ofExcept (fun final hfinal => ?_) fun e he => ?_
    swap
    · exact ⟨ord, hord, iff_of_true (.refl _) (whole_of_not fun rec' hrec =>
        absurd (he.symm.trans (hfound rec' hrec)) (by simp))⟩
    cases final with
    | some persisted =>
      have hno : ∀ rec', ¬ Consults py w₀ ord p request actor rec' := fun rec' hrec =>
        absurd (hfinal.symm.trans (hfound rec' hrec)) (by simp)
      refine solo_seq (solo_finishReconciliationPathway hadmits.state) (fun u w' h => ?_) fun e w' h => ?_
      · exact solo_pure ⟨ord, hord, whole_of_not hno⟩
      · rw [h.1]
        exact ⟨ord, hord, iff_of_true (.refl _) (whole_of_not hno)⟩
    | none =>
      have hrec : Consults py w₀ ord p request actor rec := ⟨⟨s, hadmits⟩, ⟨fp, hfp, hbegin⟩, hfinal⟩
      refine solo_observe fun x ha => ?_
      obtain rfl := houtcome rec x ha
      cases x with
      | raised typeName =>
        exact solo_raise ⟨ord, hord, iff_of_true (.refl _) fun _ _ _ h => by cases h⟩
      | returned observed =>
        dsimp only
        by_cases hopen : observed.status = .unresolved
        · have hwhole : Whole py policy w₀ ord p request actor (.returned observed) := by
            intro rec' observed' _ h hstatus
            obtain rfl := ObservationOutcome.returned.inj h
            exact absurd hopen hstatus
          rw [if_pos hopen]
          refine solo_record (fun _ _ => trivial) (fun event he => ?_) fun _ _ => ?_
          · exact solo_pure ⟨ord, hord, hwhole⟩
          · exact ⟨ord, hord, iff_of_true (.refl _) hwhole⟩
        · have hwhole : Whole py policy w₀ ord p request actor (.returned observed) ↔
              Classifies py policy w₀ p request observed := by
            refine ⟨fun h => h rec observed hrec rfl hopen, fun h rec' observed' _ heq _ => ?_⟩
            obtain rfl := ObservationOutcome.returned.inj heq
            exact h
          rw [if_neg hopen]
          refine Machine.Ensures.mono (solo_classified hA hadmits.state) fun x w' hx => ?_
          cases x with
          | ok r => exact ⟨ord, hord, hwhole.mpr hx⟩
          | error e => exact ⟨ord, hord, Iff.trans hx hwhole.symm⟩
  · rcases he with he | ⟨ord, fp, hord, hfp, hbegin⟩
    · refine ⟨_, hdefault, iff_of_true (.refl _) (whole_of_not fun rec hrec => ?_)⟩
      obtain ⟨fp, hfp, -⟩ := hrec.found
      exact absurd (he.symm.trans hfp) (by simp)
    · refine ⟨ord, hord, iff_of_true (.refl _) (whole_of_not fun rec hrec => ?_)⟩
      obtain ⟨fp', hfp', hbegin'⟩ := hrec.found
      obtain rfl := Except.ok.inj (hfp.symm.trans hfp')
      exact absurd (hbegin.symm.trans hbegin') (by simp)

end Reconcile

/-- The last call is a reconciliation; no constraint was violated, and it was not cut short. The
strategy, if it is asked, answers in this way. -/
structure Reconciliation (py : Platform) (order : Option RowOrder) (calls : List (Call × List Oracle))
    (c : Call) (os : List Oracle) (p actor : String) (request : ExecutionRequest)
    (outcome : ObservationOutcome) : Prop where
  method : c.method = .reconcile p request actor
  intact : ∀ s ∈ lastSteps py order calls c os, s.intact = true
  ended : (lastCall py order calls c os).1.ended = true
  answer : ∀ rec x, Step.observe request rec x ∈ lastSteps py order calls c os → x = outcome

/-- **When a reconciliation that raises leaves everything as it was**: exactly when its observation,
if it is asked for one and stores it, can also be recorded and moves the pathway. The ledger finds matching
rows in one order. -/
theorem reconcile_atomic (py : Platform) (ord : RowOrder) (calls : List (Call × List Oracle))
    (c : Call) (os : List Oracle) (p actor : String) (request : ExecutionRequest)
    (outcome : ObservationOutcome)
    (hrun : Reconciliation py (some ord) calls c os p actor request outcome) :
    (∀ e, (lastCall py (some ord) calls c os).1 = .raised e →
        Untouched (sequential py (some ord) calls).world (lastCall py (some ord) calls c os).2.world) ↔
      Whole py c.policy (sequential py (some ord) calls).world ord p request actor outcome := by
  have hbody : c.body py = (do return .executed (← reconcile py c.policy p request actor)) := by
    rw [Call.body, hrun.method]
  obtain ⟨-, hholds⟩ := solo_last (A := fun s => s.intact = true ∧ ∀ rec x,
    s = .observe request rec x → x = outcome) hbody
    (solo_reconcile (fun s hs => hs.1) fun rec x ha => ha.2 rec x rfl) fun s hs =>
      ⟨hrun.intact s hs, fun rec x hx => hrun.answer rec x (hx ▸ hs)⟩
  cases hout : (lastCall py (some ord) calls c os).1 with
  | crashed =>
    have := hrun.ended
    rw [hout] at this
    cases this
  | returned value =>
    rw [hout] at hholds
    obtain ⟨r, -, ord', hord, hwhole⟩ := hholds
    obtain rfl := hord ord rfl
    exact iff_of_true (fun e he => by cases he) hwhole
  | raised e =>
    rw [hout] at hholds
    obtain ⟨ord', hord, hiff⟩ := hholds
    obtain rfl := hord ord rfl
    exact Iff.trans ⟨fun h => h e rfl, fun h _ _ => h⟩ hiff

/-- A reconciliation of the unknown attempt `a`. -/
theorem observing_reconciliation {order : Option RowOrder} {observed : ReconciliationResult}
    (hrun : (∀ s ∈ lastSteps .sample order unknownCalls (observing requestA observed).1
        (observing requestA observed).2, s.intact = true) ∧
      (lastCall .sample order unknownCalls (observing requestA observed).1
        (observing requestA observed).2).1.ended = true) :
    Reconciliation .sample order unknownCalls (observing requestA observed).1
      (observing requestA observed).2 "p" "auditor" requestA (.returned observed) where
  method := rfl
  intact := hrun.1
  ended := hrun.2
  answer := fun rec x hx => lastSteps_observation (by simp [observing, Method.answered]) hx

/-- The write of `a` was applied. -/
def appliedA : Call × List Oracle := observing requestA ⟨.verifiedApplied, [], none⟩

theorem reconcile_atomic_applied :
    (∀ e, (lastCall .sample (some .attemptIdFirst) unknownCalls appliedA.1 appliedA.2).1 = .raised e →
        Untouched (sequential .sample (some .attemptIdFirst) unknownCalls).world
          (lastCall .sample (some .attemptIdFirst) unknownCalls appliedA.1 appliedA.2).2.world) ↔
      Whole .sample .default (sequential .sample (some .attemptIdFirst) unknownCalls).world .attemptIdFirst "p"
        requestA "auditor" (.returned ⟨.verifiedApplied, [], none⟩) :=
  reconcile_atomic .sample .attemptIdFirst unknownCalls _ _ "p" "auditor" requestA _
    (observing_reconciliation (by decide +kernel))

/-- The write of `a` was applied, with evidence nested deeper than the evidence log stores. -/
def deeplyApplied : Call × List Oracle := observing requestA ⟨.verifiedApplied, deepEvidence, none⟩

/-- **A reconciliation raises after it has classified the attempt**: the row is `succeeded`, and the
pathway is still unknown. -/
theorem reconcile_torn : ¬ ∀ (py : Platform) (order : Option RowOrder)
    (calls : List (Call × List Oracle)) (c : Call) (os : List Oracle) (p actor : String)
    (request : ExecutionRequest) (outcome : ObservationOutcome),
    Reconciliation py order calls c os p actor request outcome →
      ∀ e, (lastCall py order calls c os).1 = .raised e →
        Untouched (sequential py order calls).world (lastCall py order calls c os).2.world := by
  intro h
  have hrun : ((∀ s ∈ lastSteps .sample none unknownCalls deeplyApplied.1 deeplyApplied.2,
        s.intact = true) ∧
      (lastCall .sample none unknownCalls deeplyApplied.1 deeplyApplied.2).1.ended = true) ∧
      ((sequential .sample none unknownCalls).world.attempts.lookup "a").map AttemptRow.status =
        some "write_status_unknown" ∧
      ((lastCall .sample none unknownCalls deeplyApplied.1 deeplyApplied.2).2.world.attempts.lookup
        "a").map AttemptRow.status = some "succeeded" ∧
      (lastCall .sample none unknownCalls deeplyApplied.1 deeplyApplied.2).1.raises = true := by
    decide +kernel
  obtain ⟨hcall, hbefore, hafter, hraises⟩ := hrun
  obtain ⟨e, he⟩ := Outcome.raises_eq_true hraises
  have hsame := (h .sample none unknownCalls deeplyApplied.1 deeplyApplied.2 "p" "auditor" requestA _
    (observing_reconciliation hcall) e he).rows "a"
  rw [hsame, hbefore] at hafter
  exact absurd hafter (by decide)

end Rpr
