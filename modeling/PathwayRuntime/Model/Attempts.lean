import Mathlib.Data.List.AList
import PathwayRuntime.Model.Evidence

/-!
# Execution requests, results and the attempt ledger

* `ExecutionRequest`, `ExecutionResult`, `ReconciliationResult`.
* `strictJson`: strict JSON identity within its budget; `fingerprint`, `strictResultJson`.
* `resultFromAttempt`: reading a stored result back; `resultFromAttempt_strictResultJson`.
* `Ledger` with `begin`, `finish` and `discardStarted`: one transaction each.
-/

set_option autoImplicit false

namespace Rpr

/-! ## Requests and results -/

inductive ExecutionStatus : Type
  | succeeded
  | failed
  | writeStatusUnknown
  deriving DecidableEq

def ExecutionStatus.value : ExecutionStatus → String
  | succeeded => "succeeded"
  | failed => "failed"
  | writeStatusUnknown => "write_status_unknown"

theorem ExecutionStatus.value_injective : Function.Injective value := by
  intro s t h
  cases s <;> cases t <;> first | rfl | exact absurd h (by decide)

structure ExecutionRequest where
  operationId : String
  attemptId : String
  idempotencyKey : String
  action : String
  parameters : PyDict
  operationId_required : isBlank operationId = false
  attemptId_required : isBlank attemptId = false
  idempotencyKey_required : isBlank idempotencyKey = false
  action_required : isBlank action = false

structure ReadbackEvidence where
  verified : Bool
  observed : PyDict
  reason : Option PyText

structure ExecutionResult where
  status : ExecutionStatus
  evidence : PyDict
  readback : Option ReadbackEvidence
  reason : Option PyText

/-- The result carries a verified readback. -/
def ExecutionResult.verified (r : ExecutionResult) : Bool := r.readback.any ReadbackEvidence.verified

inductive ReconciliationStatus : Type
  | verifiedApplied
  | verifiedNotApplied
  | unresolved
  deriving DecidableEq

structure ReconciliationResult where
  status : ReconciliationStatus
  evidence : PyDict
  reason : Option PyText

/-- `None` or the readback as a dict. -/
def readbackValue : Option ReadbackEvidence → PyValue
  | none => .none
  | some rb => .ofFields [("verified", .bool rb.verified), ("observed", .dict rb.observed),
      ("reason", .optText rb.reason)]

/-! ## Strict JSON identity -/

def maxNesting : ℕ := 64
def maxNodes : ℕ := 10000
def maxStringBytes : ℕ := 1000000
def maxCanonicalBytes : ℕ := 1100000
def maxPathComponent : ℕ := 64

structure FingerprintBudget where
  nodes : ℕ
  stringBytes : ℕ

def FingerprintBudget.addNode (path : String) (b : FingerprintBudget) :
    Except PyError FingerprintBudget :=
  if b.nodes + 1 > maxNodes then
    .error (.attemptFingerprintError
      (path ++ " exceeds maximum expanded JSON node count " ++ toString maxNodes))
  else .ok ⟨b.nodes + 1, b.stringBytes⟩

def FingerprintBudget.addText (path : String) (b : FingerprintBudget) :
    PyText → Except PyError FingerprintBudget
  | .lone _ _ => .error (.attemptFingerprintError (path ++ " contains invalid Unicode"))
  | .utf8 s =>
    if b.stringBytes + s.utf8ByteSize > maxStringBytes then
      .error (.attemptFingerprintError
        (path ++ " exceeds maximum aggregate JSON string bytes " ++ toString maxStringBytes))
    else .ok ⟨b.nodes, b.stringBytes + s.utf8ByteSize⟩

def mappingChildPath (path : String) : PyText → String
  | .utf8 key => path ++ "." ++ (if key.length > maxPathComponent then
      String.ofList (key.toList.take (maxPathComponent - 1)) ++ "…" else key)
  | .lone _ _ => path

/-- Raise when a container is nested too deeply. -/
def checkNesting (path : String) (depth : ℕ) : Except PyError Unit :=
  if depth ≥ maxNesting then
    .error (.attemptFingerprintError
      (path ++ " exceeds maximum JSON nesting " ++ toString maxNesting))
  else .ok ()

mutual
/-- `_strict_json_identity`, with the budget that is left. -/
def strictJson (path : String) (depth : ℕ) :
    PyValue → FingerprintBudget → Except PyError (Json × FingerprintBudget)
  | .none, b => do .ok (.null, ← b.addNode path)
  | .bool x, b => do .ok (.bool x, ← b.addNode path)
  | .int i, b => do .ok (.int i, ← b.addNode path)
  | .str s, b => do
    let b ← b.addNode path
    .ok (.str s, ← b.addText path s)
  | .float x, b => do
    let b ← b.addNode path
    if x.isFinite then .ok (.float x, b)
    else .error (.attemptFingerprintError (path ++ " contains a non-finite JSON number"))
  | .dict fields, b => do
    let b ← b.addNode path
    checkNesting path depth
    let (result, b) ← strictFields path (depth + 1) fields [] b
    .ok (.obj result, b)
  | .list items, b => do
    let b ← b.addNode path
    checkNesting path depth
    let (result, b) ← strictItems path (depth + 1) 0 items b
    .ok (.arr result, b)
  | .tuple items, b => do
    let b ← b.addNode path
    checkNesting path depth
    let (result, b) ← strictItems path (depth + 1) 0 items b
    .ok (.arr result, b)
  | .object typeName _, b => do
    let _ ← b.addNode path
    .error (.attemptFingerprintError (path ++ " contains a non-JSON value of type " ++ typeName))

def strictItems (path : String) (depth : ℕ) (index : ℕ) :
    List PyValue → FingerprintBudget → Except PyError (List Json × FingerprintBudget)
  | [], b => .ok ([], b)
  | item :: items, b => do
    let (j, b) ← strictJson (path ++ "[" ++ toString index ++ "]") depth item b
    let (js, b) ← strictItems path depth (index + 1) items b
    .ok (j :: js, b)

def strictFields (path : String) (depth : ℕ) : List (PyKey × PyValue) → List (PyText × Json) →
    FingerprintBudget → Except PyError (List (PyText × Json) × FingerprintBudget)
  | [], result, b => .ok (result, b)
  | (.other _, _) :: _, _, _ =>
    .error (.attemptFingerprintError (path ++ " contains a non-string object key"))
  | (.str key, item) :: fields, result, b => do
    let b ← b.addText path key
    let (j, b) ← strictJson (mappingChildPath path key) depth item b
    strictFields path depth fields (setField key j result) b
end

/-- The canonical text of a request identity, or why there is none. -/
def ExecutionRequest.canonicalIdentity (r : ExecutionRequest) : Except PyError (List Char) := do
  let identity ← strictJson "request" 0 (.ofFields [("operation_id", .text r.operationId),
    ("action", .text r.action), ("parameters", .dict r.parameters)]) ⟨0, 0⟩
  match Json.canonical identity.1 with
  | none => .error (.attemptFingerprintError "request cannot be canonically serialized as JSON")
  | some canonical =>
    if Json.encodedSize canonical > maxCanonicalBytes then
      .error (.attemptFingerprintError
        ("request exceeds maximum canonical JSON bytes " ++ toString maxCanonicalBytes))
    else .ok canonical

/-- `SQLiteExecutionAttemptLedger.fingerprint`. -/
def fingerprint (py : Platform) (r : ExecutionRequest) : Except PyError String :=
  r.canonicalIdentity.map py.sha256

/-- The dict a result is stored as. -/
def ExecutionResult.storedValue (r : ExecutionResult) : PyValue :=
  .ofFields [("status", .text r.status.value), ("evidence", .dict r.evidence),
    ("readback", readbackValue r.readback), ("reason", .optText r.reason)]

/-- `AttemptResultPersistenceError(str(exc))`. -/
def persistenceError : PyError → PyError
  | .attemptFingerprintError message => .attemptResultPersistenceError message
  | e => e

def strictResultJson (r : ExecutionResult) : Except PyError Json :=
  match strictJson "result" 0 r.storedValue ⟨0, 0⟩ with
  | .error e => .error (persistenceError e)
  | .ok (detached, _) =>
    match Json.canonical detached with
    | none => .error (.attemptResultPersistenceError
        "execution result cannot be canonically serialized as JSON")
    | some encoded =>
      if Json.encodedSize encoded > maxCanonicalBytes then
        .error (.attemptResultPersistenceError
          ("execution result exceeds maximum canonical JSON bytes " ++ toString maxCanonicalBytes))
      else .ok detached

/-! ## Reading a stored result back -/

/-- `dict(value)` of an optional member, `{}` when it is absent. -/
def dictOf : Option Json → Except PyError PyDict
  | none => .ok []
  | some (.obj fields) => .ok (PyValue.ofJsonFields fields)
  | some _ => .error (.typeError "not a mapping")

/-- A member declared `str | None`. -/
def reasonOf : Option Json → Option PyText
  | some (.str s) => some s
  | _ => none

/-- `ExecutionStatus(str(value))`. -/
def ExecutionStatus.ofJson : Json → Except PyError ExecutionStatus :=
  enumOf value [succeeded, failed, writeStatusUnknown]

def readbackOf (value : Json) : Except PyError (Option ReadbackEvidence) :=
  match value.get? "readback" with
  | none | some .null => .ok none
  | some readback => do
    let observed ← dictOf (readback.get? "observed")
    .ok (some ⟨((readback.get? "verified").map Json.truthy).getD false, observed,
      reasonOf (readback.get? "reason")⟩)

/-- `_result_from_attempt`. -/
def resultFromAttempt (value : Json) : Except PyError ExecutionResult := do
  let readback ← readbackOf value
  let status ← ExecutionStatus.ofJson (← value.getItem "status")
  let evidence ← dictOf (value.get? "evidence")
  .ok ⟨status, evidence, readback, reasonOf (value.get? "reason")⟩

@[simp] theorem ExecutionStatus.ofJson_value (s : ExecutionStatus) :
    ExecutionStatus.ofJson (.text s.value) = .ok s := by
  cases s <;> rfl

section Strict

variable {path : String} {depth : ℕ} {b b' : FingerprintBudget}

theorem strictJson_text {s : String} {j : Json}
    (h : strictJson path depth (.text s) b = .ok (j, b')) : j = .text s := by
  rw [PyValue.text, strictJson] at h
  cases h₁ : b.addNode path with
  | error e => rw [h₁] at h; cases h
  | ok b₁ =>
    cases h₂ : b₁.addText path (.utf8 s) with
    | error e => simp only [h₁, h₂, bind, Except.bind] at h; cases h
    | ok b₂ =>
      simp only [h₁, h₂, bind, Except.bind, Except.ok.injEq, Prod.mk.injEq] at h
      exact h.1.symm

theorem strictJson_optText {s : Option PyText} {j : Json}
    (h : strictJson path depth (.optText s) b = .ok (j, b')) : reasonOf (some j) = s := by
  cases s with
  | none =>
    rw [PyValue.optText, strictJson] at h
    cases h₁ : b.addNode path with
    | error e => rw [h₁] at h; cases h
    | ok b₁ =>
      simp only [h₁, bind, Except.bind, Except.ok.injEq, Prod.mk.injEq] at h
      rw [← h.1]
      rfl
  | some s =>
    rw [PyValue.optText, strictJson] at h
    cases h₁ : b.addNode path with
    | error e => rw [h₁] at h; cases h
    | ok b₁ =>
      cases h₂ : b₁.addText path s with
      | error e => simp only [h₁, h₂, bind, Except.bind] at h; cases h
      | ok b₂ =>
        simp only [h₁, h₂, bind, Except.bind, Except.ok.injEq, Prod.mk.injEq] at h
        rw [← h.1]
        rfl

theorem strictJson_bool {x : Bool} {j : Json}
    (h : strictJson path depth (.bool x) b = .ok (j, b')) : j = .bool x := by
  rw [strictJson] at h
  cases h₁ : b.addNode path with
  | error e => rw [h₁] at h; cases h
  | ok b₁ =>
    simp only [h₁, bind, Except.bind, Except.ok.injEq, Prod.mk.injEq] at h
    exact h.1.symm

theorem strictJson_none {j : Json} (h : strictJson path depth .none b = .ok (j, b')) :
    j = .null := by
  rw [strictJson] at h
  cases h₁ : b.addNode path with
  | error e => rw [h₁] at h; cases h
  | ok b₁ =>
    simp only [h₁, bind, Except.bind, Except.ok.injEq, Prod.mk.injEq] at h
    exact h.1.symm

theorem strictJson_dict {fields : PyDict} {j : Json}
    (h : strictJson path depth (.dict fields) b = .ok (j, b')) :
    ∃ out b₁, j = .obj out ∧ strictFields path (depth + 1) fields [] b₁ = .ok (out, b') := by
  rw [strictJson] at h
  cases h₁ : b.addNode path with
  | error e => rw [h₁] at h; cases h
  | ok b₁ =>
    cases h₂ : checkNesting path depth with
    | error e => simp only [h₁, h₂, bind, Except.bind] at h; cases h
    | ok u =>
      cases h₃ : strictFields path (depth + 1) fields [] b₁ with
      | error e => simp only [h₁, h₂, h₃, bind, Except.bind] at h; cases h
      | ok r =>
        simp only [h₁, h₂, h₃, bind, Except.bind, Except.ok.injEq, Prod.mk.injEq] at h
        exact ⟨r.1, b₁, h.1.symm, by rw [h₃, ← h.2]⟩

/-- The first field is stored under its key, the others follow. -/
theorem strictFields_cons {key : PyText} {item : PyValue} {fields : PyDict}
    {result out : List (PyText × Json)}
    (h : strictFields path depth ((.str key, item) :: fields) result b = .ok (out, b')) :
    ∃ j b₁ b₂, strictJson (mappingChildPath path key) depth item b₁ = .ok (j, b₂) ∧
      strictFields path depth fields (setField key j result) b₂ = .ok (out, b') := by
  rw [strictFields] at h
  cases h₁ : b.addText path key with
  | error e => rw [h₁] at h; cases h
  | ok b₁ =>
    cases h₂ : strictJson (mappingChildPath path key) depth item b₁ with
    | error e => simp only [h₁, h₂, bind, Except.bind] at h; cases h
    | ok r =>
      simp only [h₁, h₂, bind, Except.bind] at h
      exact ⟨r.1, b₁, r.2, h₂, h⟩

theorem strictFields_nil {result out : List (PyText × Json)}
    (h : strictFields path depth [] result b = .ok (out, b')) : out = result := by
  rw [strictFields] at h
  cases h
  rfl

/-- A stored readback is read back with its verdict. -/
theorem readbackOf_strictJson {rb : Option ReadbackEvidence} {j value : Json}
    (h : strictJson path depth (readbackValue rb) b = .ok (j, b'))
    (hv : value.get? "readback" = some j) :
    ∃ rb', readbackOf value = .ok rb' ∧
      rb'.any ReadbackEvidence.verified = rb.any ReadbackEvidence.verified := by
  cases rb with
  | none =>
    rw [strictJson_none h] at hv
    exact ⟨none, by rw [readbackOf, hv], rfl⟩
  | some rb =>
    obtain ⟨out, b₁, rfl, hf⟩ := strictJson_dict h
    obtain ⟨jv, _, _, hjv, hf⟩ := strictFields_cons hf
    obtain ⟨jo, _, _, hjo, hf⟩ := strictFields_cons hf
    obtain ⟨jr, _, _, hjr, hf⟩ := strictFields_cons hf
    obtain rfl := strictJson_bool hjv
    obtain ⟨observed, _, rfl, -⟩ := strictJson_dict hjo
    obtain rfl := strictFields_nil hf
    refine ⟨some ⟨rb.verified, PyValue.ofJsonFields observed, rb.reason⟩, ?_, rfl⟩
    rw [readbackOf, hv]
    simp only [Json.get?, setField, PyText.utf8.injEq, String.reduceEq, if_false, List.lookup_cons,
      PyText.beq_utf8, String.reduceBEq, dictOf, strictJson_optText hjr, bind, Except.bind]
    rfl

/-- **A stored result is read back with its status, its verdict and its reason.** -/
theorem resultFromAttempt_strictResultJson {r : ExecutionResult} {j : Json}
    (h : strictResultJson r = .ok j) : ∃ r', resultFromAttempt j = .ok r' ∧
      r'.status = r.status ∧ r'.verified = r.verified ∧ r'.reason = r.reason := by
  unfold strictResultJson at h
  cases hj : strictJson "result" 0 r.storedValue ⟨0, 0⟩ with
  | error e => rw [hj] at h; cases h
  | ok d =>
    obtain ⟨detached, b₀⟩ := d
    obtain rfl : detached = j := by
      rw [hj] at h
      dsimp only at h
      split at h
      · cases h
      · split_ifs at h
        exact Except.ok.inj h
    obtain ⟨out, b₁, rfl, hf⟩ := strictJson_dict hj
    obtain ⟨js, _, _, hjs, hf⟩ := strictFields_cons hf
    obtain ⟨je, _, _, hje, hf⟩ := strictFields_cons hf
    obtain ⟨jr, _, _, hjr, hf⟩ := strictFields_cons hf
    obtain ⟨jm, _, _, hjm, hf⟩ := strictFields_cons hf
    obtain rfl := strictJson_text hjs
    obtain ⟨evidence, _, rfl, -⟩ := strictJson_dict hje
    obtain rfl := strictFields_nil hf
    clear hj h
    generalize hvalue : Json.obj _ = value
    have hget : value.get? "status" = some (.text r.status.value) ∧
        value.get? "evidence" = some (.obj evidence) ∧ value.get? "readback" = some jr ∧
        value.get? "reason" = some jm := by
      rw [← hvalue]
      simp only [Json.get?, setField, PyText.utf8.injEq, String.reduceEq, if_false, List.lookup_cons,
        PyText.beq_utf8, String.reduceBEq, and_self]
    obtain ⟨hstatus, hevidence, hreadback, hreason⟩ := hget
    obtain ⟨rb', hrb, hver⟩ := readbackOf_strictJson hjr hreadback
    refine ⟨⟨r.status, PyValue.ofJsonFields evidence, rb', r.reason⟩, ?_, rfl, hver, rfl⟩
    rw [resultFromAttempt, hrb, Json.getItem, hstatus, hevidence, hreason, strictJson_optText hjm]
    simp only [ExecutionStatus.ofJson_value, dictOf, bind, Except.bind]

end Strict

/-! ## The ledger -/

/-- A `result_json` column together with the `status` column written with it. -/
structure PersistedResult where
  status : ExecutionStatus
  json : Json
  decodes : ∃ r, resultFromAttempt json = .ok r ∧ r.status = status

/-- A row of `execution_attempts` but its key. Both columns of the outcome are written by the same
update; a row without one is `started`. -/
structure AttemptRow where
  pathwayId : String
  operationId : String
  idempotencyKey : String
  requestFingerprint : String
  outcome : Option PersistedResult

structure ExecutionAttemptRecord extends AttemptRow where
  attemptId : String

/-- The `status` column. -/
def AttemptRow.status (r : AttemptRow) : String :=
  match r.outcome with
  | none => "started"
  | some p => p.status.value

/-- The stored status, when there is a stored result. -/
def AttemptRow.final (r : AttemptRow) : Option ExecutionStatus := r.outcome.map PersistedResult.status

/-- The status column names a final status exactly when a result with it is stored. -/
theorem AttemptRow.status_eq_value {r : AttemptRow} {s : ExecutionStatus} :
    r.status = s.value ↔ r.final = some s := by
  unfold status final
  cases h : r.outcome with
  | none => cases s <;> simp [ExecutionStatus.value]
  | some p =>
    simp only [Option.map_some, Option.some.injEq]
    exact ⟨fun hv => ExecutionStatus.value_injective hv, fun hs => congrArg _ hs⟩

/-- `execution_attempts`, keyed by `attempt_id`. -/
abbrev Ledger : Type := AList fun _ : String => AttemptRow

/-- A result as it is written by `finish`. -/
def persistResult (r : ExecutionResult) : Except PyError PersistedResult :=
  match h : strictResultJson r with
  | .error e => .error e
  | .ok json => .ok ⟨r.status, json,
      (resultFromAttempt_strictResultJson h).imp fun _ hr => ⟨hr.1, hr.2.1⟩⟩

/-- What is written is read back with the status and the verdict of the result. -/
theorem persistResult_ok {r : ExecutionResult} {res : PersistedResult} (h : persistResult r = .ok res) :
    res.status = r.status ∧ ∀ r', resultFromAttempt res.json = .ok r' →
      r'.status = r.status ∧ r'.verified = r.verified := by
  unfold persistResult at h
  split at h
  · cases h
  · rename_i json hjson
    obtain rfl := Except.ok.inj h
    obtain ⟨r₀, hr₀, hstatus, hverified, -⟩ := resultFromAttempt_strictResultJson hjson
    refine ⟨rfl, fun r' hr' => ?_⟩
    obtain rfl := Except.ok.inj (hr₀.symm.trans hr')
    exact ⟨hstatus, hverified⟩

/-- A stored result is read back with its status. -/
theorem PersistedResult.status_eq {res : PersistedResult} {r : ExecutionResult}
    (h : resultFromAttempt res.json = .ok r) : r.status = res.status := by
  obtain ⟨r', hr', hstatus⟩ := res.decodes
  obtain rfl := Except.ok.inj (hr'.symm.trans h)
  exact hstatus

/-- The result written by `mark_result_persistence_unknown`. -/
def unknownResult (reason : String) : PersistedResult where
  status := .writeStatusUnknown
  json := .obj [("status", .text ExecutionStatus.writeStatusUnknown.value), ("evidence", .obj []),
    ("readback", .null), ("reason", .text reason)]
  decodes := ⟨⟨.writeStatusUnknown, [], none, some reason⟩, rfl, rfl⟩

/-- Which of two rows matching `begin`'s lookup the database returns. -/
inductive RowOrder : Type
  | attemptIdFirst
  | keyFirst
  deriving DecidableEq

namespace Ledger

variable (l : Ledger)

def record (attemptId : String) (row : AttemptRow) : ExecutionAttemptRecord := ⟨row, attemptId⟩

/-- The row with this `attempt_id`. -/
def get (attemptId : String) : Option ExecutionAttemptRecord := (l.lookup attemptId).map (record attemptId)

/-- The row with this `pathway_id` and `idempotency_key`; the unique index allows one. -/
def byKey (pathwayId key : String) : Option ExecutionAttemptRecord :=
  (l.entries.find? fun r => r.2.pathwayId = pathwayId ∧ r.2.idempotencyKey = key).map fun r =>
    record r.1 r.2

/-- The row the `SELECT` of `begin` returns. -/
def matching (order : RowOrder) (pathwayId : String) (r : ExecutionRequest) :
    Option ExecutionAttemptRecord :=
  match order with
  | .attemptIdFirst => (l.get r.attemptId).or (l.byKey pathwayId r.idempotencyKey)
  | .keyFirst => (l.byKey pathwayId r.idempotencyKey).or (l.get r.attemptId)

/-- The row `begin` inserts. -/
def startedRow (pathwayId : String) (r : ExecutionRequest) (fp : String) : AttemptRow :=
  ⟨pathwayId, r.operationId, r.idempotencyKey, fp, none⟩

/-- `begin`, after the fingerprint. -/
def begin (order : RowOrder) (pathwayId : String) (r : ExecutionRequest) (fp : String) :
    Except PyError (Bool × ExecutionAttemptRecord) × Ledger :=
  match l.matching order pathwayId r with
  | some record =>
    if record.pathwayId ≠ pathwayId ∨ record.operationId ≠ r.operationId ∨
        record.requestFingerprint ≠ fp then
      (.error (.attemptConflictError
        "attempt or idempotency key belongs to different execution data"), l)
    else (.ok (true, record), l)
  | none =>
    let row := startedRow pathwayId r fp
    (.ok (false, record r.attemptId row), l.insert r.attemptId row)

/-- The update of `finish` and of `mark_result_persistence_unknown`; no row, no change. -/
def finish (attemptId : String) (p : PersistedResult) : Option ExecutionAttemptRecord × Ledger :=
  match l.lookup attemptId with
  | none => (none, l)
  | some row =>
    let row := { row with outcome := some p }
    (some (record attemptId row), l.insert attemptId row)

def discardStarted (attemptId : String) : Bool × Ledger :=
  match l.lookup attemptId with
  | some row => if row.outcome.isNone then (true, l.erase attemptId) else (false, l)
  | none => (false, l)

end Ledger

end Rpr
