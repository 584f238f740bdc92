import PathwayRuntime.Model.System

/-!
# The rows the lookup of `begin` matches

The lookup is a disjunction: the row of the attempt, or the row of the idempotency key.

* `LedgerCall`, `Ledger.ofCalls`: the ledgers that calls of its methods leave.
* `keysUnique_ofCalls`: the unique index on pathway and key holds in all of them.
* `matches_iff_matching`: the matching rows are those the database can return.
* **`determined_iff`**: when all of them are answered alike.
-/

set_option autoImplicit false

namespace Rpr

/-! ## Calls of a ledger -/

/-- The methods of `SQLiteExecutionAttemptLedger` that write; `order` is the row `begin` is given
when its lookup matches two. -/
inductive LedgerCall : Type
  | begin (order : RowOrder) (pathwayId : String) (request : ExecutionRequest)
  | finish (attemptId : String) (result : ExecutionResult)
  | discardStarted (attemptId : String)
  | markResultPersistenceUnknown (attemptId reason : String)

/-- The ledger after a call; a call that raises before its transaction leaves it as it was. -/
def LedgerCall.apply (py : Platform) (l : Ledger) : LedgerCall → Ledger
  | .begin order p r =>
    match fingerprint py r with
    | .error _ => l
    | .ok fp => (l.begin order p r fp).2
  | .finish x r =>
    match persistResult r with
    | .error _ => l
    | .ok res => (l.finish x res).2
  | .discardStarted x => (l.discardStarted x).2
  | .markResultPersistenceUnknown x reason => (l.finish x (unknownResult reason)).2

namespace Ledger

/-- The ledger after calls on an empty one. -/
def ofCalls (py : Platform) (calls : List LedgerCall) : Ledger := calls.foldl (LedgerCall.apply py) ∅

/-- Rows with the same pathway and key are one row. -/
def KeysUnique (l : Ledger) : Prop :=
  ∀ x y a b, l.lookup x = some a → l.lookup y = some b → a.pathwayId = b.pathwayId →
    a.idempotencyKey = b.idempotencyKey → x = y

/-- The check of `begin`: the row belongs to different execution data. -/
def Foreign (p : String) (r : ExecutionRequest) (fp : String) (record : ExecutionAttemptRecord) : Prop :=
  record.pathwayId ≠ p ∨ record.operationId ≠ r.operationId ∨ record.requestFingerprint ≠ fp

instance (p : String) (r : ExecutionRequest) (fp : String) (record : ExecutionAttemptRecord) :
    Decidable (Foreign p r fp record) := inferInstanceAs (Decidable (_ ∨ _ ∨ _))

/-- What `begin` answers when the database returns this row. -/
def answer (p : String) (r : ExecutionRequest) (fp : String) (record : ExecutionAttemptRecord) :
    Except PyError (Bool × ExecutionAttemptRecord) :=
  if Foreign p r fp record then
    .error (.attemptConflictError "attempt or idempotency key belongs to different execution data")
  else .ok (true, record)

section

variable (l : Ledger) (p : String) (r : ExecutionRequest)

/-- A row with the attempt of the request, or with its key on this pathway. -/
structure Matches (record : ExecutionAttemptRecord) : Prop where
  stored : l.get record.attemptId = some record
  found : record.attemptId = r.attemptId ∨ record.pathwayId = p ∧ record.idempotencyKey = r.idempotencyKey

/-- All matching rows are answered alike. -/
def Determined (py : Platform) : Prop :=
  ∀ fp, fingerprint py r = .ok fp → ∀ a b, l.Matches p r a → l.Matches p r b →
    answer p r fp a = answer p r fp b

/-- The attempt and the key of the request are in two rows, and one of them has its execution data. -/
def Ambiguous (py : Platform) : Prop :=
  ∃ fp a b, fingerprint py r = .ok fp ∧ l.get r.attemptId = some a ∧
    l.byKey p r.idempotencyKey = some b ∧ a.attemptId ≠ b.attemptId ∧
    ¬ (Foreign p r fp a ∧ Foreign p r fp b)

end

/-! ## The unique index -/

section Unique

variable {py : Platform} {l : Ledger} {p : String} {r : ExecutionRequest} {fp : String} {ord : RowOrder}

/-- No row has a key that is not found. -/
theorem byKey_eq_none {key x : String} {row : AttemptRow} (h : l.byKey p key = none)
    (hrow : l.lookup x = some row) : ¬ (row.pathwayId = p ∧ row.idempotencyKey = key) := by
  have hmem : Sigma.mk x row ∈ l.entries := AList.mem_lookup_iff.mp hrow
  simpa using List.find?_eq_none.mp (Option.map_eq_none_iff.mp h) _ hmem

theorem matching_none (h : l.matching ord p r = none) :
    l.get r.attemptId = none ∧ l.byKey p r.idempotencyKey = none := by
  cases ord
  · exact Option.or_eq_none_iff.mp h
  · exact (Option.or_eq_none_iff.mp h).symm

theorem KeysUnique.begin (hl : l.KeysUnique) : (l.begin ord p r fp).2.KeysUnique := by
  cases hm : l.matching ord p r with
  | some record =>
    have : (l.begin ord p r fp).2 = l := by
      unfold Ledger.begin
      simp only [hm]
      split_ifs <;> rfl
    rwa [this]
  | none =>
    have hins : (l.begin ord p r fp).2 = l.insert r.attemptId (startedRow p r fp) := by
      unfold Ledger.begin
      simp only [hm]
    have hnone := (matching_none hm).2
    rw [hins]
    intro x y a b ha hb hp hk
    -- The inserted row has a key that no other row has.
    by_cases hx : x = r.attemptId <;> by_cases hy : y = r.attemptId
    · exact hx.trans hy.symm
    · rw [hx, AList.lookup_insert, Option.some.injEq] at ha
      rw [AList.lookup_insert_ne hy] at hb
      exact absurd ⟨by rw [← hp, ← ha]; rfl, by rw [← hk, ← ha]; rfl⟩ (byKey_eq_none hnone hb)
    · rw [AList.lookup_insert_ne hx] at ha
      rw [hy, AList.lookup_insert, Option.some.injEq] at hb
      exact absurd ⟨by rw [hp, ← hb]; rfl, by rw [hk, ← hb]; rfl⟩ (byKey_eq_none hnone ha)
    · rw [AList.lookup_insert_ne hx] at ha
      rw [AList.lookup_insert_ne hy] at hb
      exact hl x y a b ha hb hp hk

/-- Storing an outcome keeps the key of every row. -/
theorem KeysUnique.finish {x : String} {res : PersistedResult} (hl : l.KeysUnique) :
    (l.finish x res).2.KeysUnique := by
  have hrow : ∀ y a, (l.finish x res).2.lookup y = some a →
      ∃ b, l.lookup y = some b ∧ b.pathwayId = a.pathwayId ∧ b.idempotencyKey = a.idempotencyKey := by
    intro y a ha
    rw [lookup_finish] at ha
    split_ifs at ha with hy
    · obtain ⟨b, hb, rfl⟩ := Option.map_eq_some_iff.mp ha
      exact ⟨b, hy ▸ hb, rfl, rfl⟩
    · exact ⟨a, ha, rfl, rfl⟩
  intro y z a b ha hb hp hk
  obtain ⟨a', ha', hap, hak⟩ := hrow y a ha
  obtain ⟨b', hb', hbp, hbk⟩ := hrow z b hb
  exact hl y z a' b' ha' hb' (by rw [hap, hp, hbp]) (by rw [hak, hk, hbk])

theorem KeysUnique.discardStarted {x : String} (hl : l.KeysUnique) :
    (l.discardStarted x).2.KeysUnique :=
  fun y z a b ha hb => hl y z a b (lookup_discardStarted ha) (lookup_discardStarted hb)

theorem KeysUnique.apply (hl : l.KeysUnique) (c : LedgerCall) : (c.apply py l).KeysUnique := by
  cases c with
  | begin order p r =>
    rw [LedgerCall.apply]
    split
    · exact hl
    · exact hl.begin
  | finish x r =>
    rw [LedgerCall.apply]
    split
    · exact hl
    · exact hl.finish
  | discardStarted x => exact hl.discardStarted
  | markResultPersistenceUnknown x reason => exact hl.finish

/-- **The unique index holds in every ledger.** -/
theorem keysUnique_ofCalls (py : Platform) (calls : List LedgerCall) : (ofCalls py calls).KeysUnique := by
  suffices h : ∀ l : Ledger, l.KeysUnique → (calls.foldl (LedgerCall.apply py) l).KeysUnique from
    h ∅ fun x y a b ha => by simp at ha
  induction calls with
  | nil => exact fun l hl => hl
  | cons c calls ih => exact fun l hl => ih _ (hl.apply c)

end Unique

/-! ## The matching rows -/

section Matching

variable {l : Ledger} {p fp : String} {r : ExecutionRequest} {record : ExecutionAttemptRecord}

theorem get_self (h : l.lookup record.attemptId = some record.toAttemptRow) :
    l.get record.attemptId = some record := get_eq_some.mpr ⟨h, rfl⟩

theorem matches_of_get (h : l.get r.attemptId = some record) : l.Matches p r record :=
  ⟨get_self ((get_eq_some.mp h).2 ▸ (get_eq_some.mp h).1), .inl (get_eq_some.mp h).2⟩

theorem matches_of_byKey (h : l.byKey p r.idempotencyKey = some record) : l.Matches p r record :=
  ⟨get_self (byKey_eq_some h).1, .inr (byKey_eq_some h).2⟩

/-- A matching row is the row of the attempt or the row of the key. -/
theorem Matches.cases (hl : l.KeysUnique) (h : l.Matches p r record) :
    l.get r.attemptId = some record ∨ l.byKey p r.idempotencyKey = some record := by
  rcases h.found with hx | hk
  · exact .inl (hx ▸ h.stored)
  · right
    have hrow := (get_eq_some.mp h.stored).1
    cases hb : l.byKey p r.idempotencyKey with
    | none => exact absurd hk (byKey_eq_none hb hrow)
    | some record' =>
      obtain ⟨hrow', hp', hk'⟩ := byKey_eq_some hb
      have hid := hl _ _ _ _ hrow' hrow (hp'.trans hk.1.symm) (hk'.trans hk.2.symm)
      rw [← get_self hrow', hid, h.stored]

/-- The matching rows are those the database can return. -/
theorem matches_iff_matching (hl : l.KeysUnique) :
    l.Matches p r record ↔ ∃ ord, l.matching ord p r = some record := by
  constructor
  · intro h
    rcases h.cases hl with hx | hk
    · exact ⟨.attemptIdFirst, Option.or_eq_some_iff.mpr (.inl hx)⟩
    · exact ⟨.keyFirst, Option.or_eq_some_iff.mpr (.inl hk)⟩
  · rintro ⟨ord, h⟩
    cases ord <;> rcases Option.or_eq_some_iff.mp h with h | ⟨-, h⟩
    · exact matches_of_get h
    · exact matches_of_byKey h
    · exact matches_of_byKey h
    · exact matches_of_get h

theorem begin_eq_answer {ord : RowOrder} (h : l.matching ord p r = some record) :
    (l.begin ord p r fp).1 = answer p r fp record := by
  unfold Ledger.begin
  simp only [h]
  by_cases hf : Foreign p r fp record
  · rw [answer, if_pos hf]
    exact congrArg Prod.fst (if_pos hf)
  · rw [answer, if_neg hf]
    exact congrArg Prod.fst (if_neg hf)

/-- Two rows are answered alike when they are one row or both belong to other data. -/
theorem answer_eq_iff {a b : ExecutionAttemptRecord} :
    answer p r fp a = answer p r fp b ↔ a = b ∨ Foreign p r fp a ∧ Foreign p r fp b := by
  unfold answer
  split_ifs with ha hb hb
  · exact iff_of_true rfl (.inr ⟨ha, hb⟩)
  · exact iff_of_false (by simp) (by rintro (rfl | h) <;> simp_all)
  · exact iff_of_false (by simp) (by rintro (rfl | h) <;> simp_all)
  · simp [ha]

/-- The answer of `begin` does not depend on the order exactly when all matching rows agree. -/
theorem determined_iff_begin {py : Platform} (hl : l.KeysUnique) : l.Determined p r py ↔
    ∀ fp, fingerprint py r = .ok fp → ∀ ord ord', (l.begin ord p r fp).1 = (l.begin ord' p r fp).1 := by
  refine forall₂_congr fun fp _ => ⟨fun h ord ord' => ?_, fun h a b ha hb => ?_⟩
  · cases hm : l.matching ord p r with
    | some a =>
      cases hm' : l.matching ord' p r with
      | some b =>
        rw [begin_eq_answer hm, begin_eq_answer hm']
        exact h a b ((matches_iff_matching hl).mpr ⟨_, hm⟩) ((matches_iff_matching hl).mpr ⟨_, hm'⟩)
      | none =>
        have := matching_none hm'
        cases ord <;> simp [matching, this] at hm
    | none =>
      have hm' : l.matching ord' p r = none := by
        have := matching_none hm
        cases ord' <;> simp [matching, this]
      unfold Ledger.begin
      simp only [hm, hm']
  · obtain ⟨ord, hm⟩ := (matches_iff_matching hl).mp ha
    obtain ⟨ord', hm'⟩ := (matches_iff_matching hl).mp hb
    rw [← begin_eq_answer hm, ← begin_eq_answer hm']
    exact h ord ord'

/-- **All matching rows are answered alike unless the request is ambiguous.** -/
theorem determined_iff (py : Platform) (calls : List LedgerCall) (p : String) (r : ExecutionRequest) :
    (ofCalls py calls).Determined p r py ↔ ¬ (ofCalls py calls).Ambiguous p r py := by
  have hl := keysUnique_ofCalls py calls
  constructor
  · rintro h ⟨fp, a, b, hfp, ha, hb, hne, hforeign⟩
    rcases answer_eq_iff.mp (h fp hfp a b (matches_of_get ha) (matches_of_byKey hb)) with rfl | hboth
    · exact hne rfl
    · exact hforeign hboth
  · intro h fp hfp a b ha hb
    rw [answer_eq_iff]
    by_contra hno
    rw [not_or] at hno
    have hne : a.attemptId ≠ b.attemptId := fun hid => hno.1 <| by
      have := ha.stored
      rwa [hid, hb.stored, Option.some.injEq, eq_comm] at this
    rcases ha.cases hl with hax | hak <;> rcases hb.cases hl with hbx | hbk
    · exact hno.1 (Option.some.inj (hax.symm.trans hbx))
    · exact h ⟨fp, a, b, hfp, hax, hbk, hne, hno.2⟩
    · exact h ⟨fp, b, a, hfp, hbx, hak, hne.symm, fun hba => hno.2 hba.symm⟩
    · exact hno.1 (Option.some.inj (hak.symm.trans hbk))

end Matching

/-- A request for the attempt of `requestA` under the key of `requestB`. -/
def crossedRequest : ExecutionRequest := { requestA with
  idempotencyKey := requestB.idempotencyKey
  idempotencyKey_required := requestB.idempotencyKey_required }

/-- The two attempts are of the same execution data, and the request with the attempt of one and the
key of the other matches both rows. -/
theorem crossed_not_determined : ¬ ∀ (py : Platform) (calls : List LedgerCall) (p : String)
    (r : ExecutionRequest), (ofCalls py calls).Determined p r py := by
  intro h
  have hl := keysUnique_ofCalls .sample
    [.begin .attemptIdFirst "p" requestA, .begin .attemptIdFirst "p" requestB]
  have hdet := (determined_iff_begin hl).mp (h .sample
    [.begin .attemptIdFirst "p" requestA, .begin .attemptIdFirst "p" requestB] "p" crossedRequest)
  have hboth := hdet _ rfl .attemptIdFirst .keyFirst
  have hids := congrArg (fun x => x.toOption.map fun y => y.2.attemptId) hboth
  revert hids
  decide +kernel

end Ledger

end Rpr
