import PathwayRuntime.Model.Attempts
import PathwayRuntime.Resume.Machine

/-!
# The two databases and their transactions

* `World`: the pathway store, its event log and the attempt ledger.
* `Op`, `Step`: the atomic operations a call makes, and one of them with its response: a
  transaction, a clock reading, or one use of an outside party.
* `database`: the machine that executes them.
* `Step.effect`, `Step.Answers`: what a step does to the world and what its response says about it;
  `exec_effect`, `exec_answers`.
-/

set_option autoImplicit false

namespace Rpr

open Resume

/-! ## Tables -/

/-- A row of `pathways` but its key. -/
structure PathwayRow where
  definitionJson : Json
  definitionFingerprint : String
  state : PathwayState
  idempotencyKey : String

structure World where
  pathways : AList fun _ : String => PathwayRow
  /-- `evidence_events`, newest first. -/
  events : List EvidenceEvent
  attempts : Ledger

namespace World

def empty : World := ⟨∅, [], ∅⟩

variable (w : World)

def state (pathwayId : String) : Option PathwayState :=
  (w.pathways.lookup pathwayId).map PathwayRow.state

def definitionJson (pathwayId : String) : Option Json :=
  (w.pathways.lookup pathwayId).map PathwayRow.definitionJson

/-- The events of a pathway, newest first. -/
def log (pathwayId : String) : List EvidenceEvent :=
  w.events.filter fun e => e.pathwayId = pathwayId

/-! ### Updates -/

def create (pathwayId : String) (row : PathwayRow) : World :=
  { w with pathways := w.pathways.insert pathwayId row }

def push (event : EvidenceEvent) : World := { w with events := event :: w.events }

def setState (pathwayId : String) (target : PathwayState) : World :=
  match w.pathways.lookup pathwayId with
  | none => w
  | some row => w.create pathwayId { row with state := target }

def commit (pathwayId : String) (target : PathwayState) (event : EvidenceEvent) : World :=
  (w.setState pathwayId target).push event

def withAttempts (l : Ledger) : World := { w with attempts := l }

/-! ### Transactions of the pathway store -/

/-- The `INSERT` into `evidence_events`: a known pathway and a new hash. -/
def insertEvent (event : EvidenceEvent) : Except PyError World :=
  if (w.state event.pathwayId).isNone then .error (.integrityError "FOREIGN KEY constraint failed")
  else if ∃ e ∈ w.events, e.eventHash = event.eventHash then
    .error (.integrityError "UNIQUE constraint failed: evidence_events.event_hash")
  else .ok (w.push event)

def appendEvent (event : EvidenceEvent) : Except PyError Unit × World :=
  match w.insertEvent event with
  | .error e => (.error e, w)
  | .ok w' => (.ok (), w')

def transitionWithEvent (pathwayId : String) (expected target : PathwayState)
    (event : EvidenceEvent) : Except PyError Unit × World :=
  match w.state pathwayId with
  | none => (.error (.keyError pathwayId), w)
  | some found =>
    if found ≠ expected then
      (.error (.runtimeError
        ("concurrent state change: expected " ++ expected.value ++ ", found " ++ found.value)), w)
    else match (w.setState pathwayId target).insertEvent event with
      | .error e => (.error e, w)
      | .ok w' => (.ok (), w')

/-- The row stored under an idempotency key, which is unique. -/
def byIdempotencyKey (key : String) : Option (String × PathwayRow) :=
  (w.pathways.entries.find? fun r => r.2.idempotencyKey = key).map fun r => (r.1, r.2)

/-- `create_or_replay_pathway`, after the canonical form and its fingerprint. -/
def createOrReplayPathway (definition : PathwayDefinition) (fp : String) (state : PathwayState)
    (key : String) : Except PyError (Bool × PathwayState) × World :=
  match w.byIdempotencyKey key with
  | some (pathwayId, row) =>
    if pathwayId ≠ definition.pathwayId ∨ row.definitionFingerprint ≠ fp then
      (.error (.idempotencyConflictError
        "idempotency key already belongs to a different pathway request"), w)
    else (.ok (true, row.state), w)
  | none =>
    if (w.state definition.pathwayId).isSome then
      (.error (.integrityError "UNIQUE constraint failed: pathways.pathway_id"), w)
    else (.ok (false, state), w.create definition.pathwayId ⟨definition.toDict, fp, state, key⟩)

def getState (pathwayId : String) : Except PyError PathwayState :=
  match w.state pathwayId with
  | none => .error (.keyError pathwayId)
  | some s => .ok s

def getDefinition (py : Platform) (pathwayId : String) : Except PyError PathwayDefinition :=
  match w.definitionJson pathwayId with
  | none => .error (.keyError pathwayId)
  | some j => PathwayDefinition.fromDict py j

def getAttempt (attemptId : String) : Except PyError ExecutionAttemptRecord :=
  match w.attempts.get attemptId with
  | none => .error (.keyError attemptId)
  | some record => .ok record

end World

/-! ## Operations -/

/-- How the evaluator answered. -/
inductive RpeOutcome : Type
  | returned (decision : RuntimeDecision) (reasonCodes : List PyText) (raw : Option PyDict)
  | contractError (typeName : String) (message : PyText)
  | raised (typeName : String)

/-- How the executor ended. -/
inductive ExecutorOutcome : Type
  | returned (result : ExecutionResult)
  | raised (typeName : String)

/-- How the reconciliation strategy ended. -/
inductive ObservationOutcome : Type
  | returned (observed : ReconciliationResult)
  | raised (typeName : String)

/-- What the environment decides at one operation. -/
structure Oracle where
  rowOrder : RowOrder := .attemptIdFirst
  time : String := ""
  rpe : RpeOutcome := .returned .allow [] none
  executor : ExecutorOutcome := .raised "RuntimeError"
  observation : ObservationOutcome := .raised "RuntimeError"

/-- The atomic operations of a call. The pathway of `invokeExecutor` is the one the executor is
invoked for. -/
inductive Op : Type
  | getDefinition (pathwayId : String)
  | getState (pathwayId : String)
  | events (pathwayId : String)
  | latestEventHash (pathwayId : String)
  | createOrReplayPathway (definition : PathwayDefinition) (fp : String) (state : PathwayState)
      (key : String)
  | transitionWithEvent (pathwayId : String) (expected target : PathwayState) (event : EvidenceEvent)
  | appendEvent (event : EvidenceEvent)
  | begin (pathwayId : String) (request : ExecutionRequest) (fp : String)
  | finish (attemptId : String) (result : PersistedResult)
  | discardStarted (attemptId : String)
  | getAttempt (attemptId : String)
  | now
  | evaluateRpe (definition : PathwayDefinition)
  | invokeExecutor (pathwayId : String) (request : ExecutionRequest)
  | observe (request : ExecutionRequest) (attempt : ExecutionAttemptRecord)

/-- The response of an operation. -/
@[reducible] def Res : Op → Type
  | .getDefinition _ => Except PyError PathwayDefinition
  | .getState _ => Except PyError PathwayState
  | .events _ => List EvidenceEvent
  | .latestEventHash _ => Option String
  | .createOrReplayPathway .. => Except PyError (Bool × PathwayState)
  | .transitionWithEvent .. => Except PyError Unit
  | .appendEvent _ => Except PyError Unit
  | .begin .. => Except PyError (Bool × ExecutionAttemptRecord)
  | .finish .. => Option ExecutionAttemptRecord
  | .discardStarted _ => Bool
  | .getAttempt _ => Except PyError ExecutionAttemptRecord
  | .now => String
  | .evaluateRpe _ => RpeOutcome
  | .invokeExecutor .. => ExecutorOutcome
  | .observe .. => ObservationOutcome

/-- An executed operation. -/
inductive Step : Type
  | getDefinition (pathwayId : String) (r : Except PyError PathwayDefinition)
  | getState (pathwayId : String) (r : Except PyError PathwayState)
  | events (pathwayId : String) (r : List EvidenceEvent)
  | latestEventHash (pathwayId : String) (r : Option String)
  | createOrReplayPathway (definition : PathwayDefinition) (fp : String) (state : PathwayState)
      (key : String) (r : Except PyError (Bool × PathwayState))
  | transitionWithEvent (pathwayId : String) (expected target : PathwayState)
      (event : EvidenceEvent) (r : Except PyError Unit)
  | appendEvent (event : EvidenceEvent) (r : Except PyError Unit)
  | begin (pathwayId : String) (request : ExecutionRequest) (fp : String)
      (r : Except PyError (Bool × ExecutionAttemptRecord))
  | finish (attemptId : String) (result : PersistedResult) (r : Option ExecutionAttemptRecord)
  | discardStarted (attemptId : String) (r : Bool)
  | getAttempt (attemptId : String) (r : Except PyError ExecutionAttemptRecord)
  | now (r : String)
  | evaluateRpe (definition : PathwayDefinition) (r : RpeOutcome)
  | invokeExecutor (pathwayId : String) (request : ExecutionRequest) (r : ExecutorOutcome)
  | observe (request : ExecutionRequest) (attempt : ExecutionAttemptRecord) (r : ObservationOutcome)

/-- An operation with its response. -/
def label : (op : Op) → Res op → Step
  | .getDefinition p, r => .getDefinition p r
  | .getState p, r => .getState p r
  | .events p, r => .events p r
  | .latestEventHash p, r => .latestEventHash p r
  | .createOrReplayPathway d fp s key, r => .createOrReplayPathway d fp s key r
  | .transitionWithEvent p a b e, r => .transitionWithEvent p a b e r
  | .appendEvent e, r => .appendEvent e r
  | .begin p q fp, r => .begin p q fp r
  | .finish x res, r => .finish x res r
  | .discardStarted x, r => .discardStarted x r
  | .getAttempt x, r => .getAttempt x r
  | .now, r => .now r
  | .evaluateRpe d, r => .evaluateRpe d r
  | .invokeExecutor p q, r => .invokeExecutor p q r
  | .observe q a, r => .observe q a r

/-- Execute one operation. `order` fixes which matching row `begin` finds; else the environment
decides each time. -/
def exec (py : Platform) (order : Option RowOrder) : (op : Op) → Oracle → World → Res op × World
  | .getDefinition p, _, w => (w.getDefinition py p, w)
  | .getState p, _, w => (w.getState p, w)
  | .events p, _, w => ((w.log p).reverse, w)
  | .latestEventHash p, _, w => (headHash (w.log p), w)
  | .createOrReplayPathway d fp s key, _, w => w.createOrReplayPathway d fp s key
  | .transitionWithEvent p a b e, _, w => w.transitionWithEvent p a b e
  | .appendEvent e, _, w => w.appendEvent e
  | .begin p q fp, o, w =>
    let r := w.attempts.begin (order.getD o.rowOrder) p q fp
    (r.1, w.withAttempts r.2)
  | .finish x res, _, w =>
    let r := w.attempts.finish x res
    (r.1, w.withAttempts r.2)
  | .discardStarted x, _, w =>
    let r := w.attempts.discardStarted x
    (r.1, w.withAttempts r.2)
  | .getAttempt x, _, w => (w.getAttempt x, w)
  | .now, o, w => (o.time, w)
  | .evaluateRpe _, o, w => (o.rpe, w)
  | .invokeExecutor _ _, o, w => (o.executor, w)
  | .observe _ _, o, w => (o.observation, w)

/-- The databases and the outside parties, as a machine. -/
def database (py : Platform) (order : Option RowOrder) : Machine Op Res World Oracle Step where
  exec := exec py order
  label := label

/-! ## What a step does and says -/

/-- What a step does to the world. -/
def Step.effect : Step → World → World
  | .createOrReplayPathway d fp s key (.ok (false, _)), w =>
    w.create d.pathwayId ⟨d.toDict, fp, s, key⟩
  | .transitionWithEvent p _ b e (.ok ()), w => w.commit p b e
  | .appendEvent e (.ok ()), w => w.push e
  | .begin p q fp (.ok (false, _)), w =>
    w.withAttempts (w.attempts.insert q.attemptId (Ledger.startedRow p q fp))
  | .finish x res _, w => w.withAttempts (w.attempts.finish x res).2
  | .discardStarted x _, w => w.withAttempts (w.attempts.discardStarted x).2
  | _, w => w

/-- What the response of a step says about the world it was made in. -/
def Step.Answers (py : Platform) (order : Option RowOrder) : Step → World → Prop
  | .getDefinition p r, w => r = w.getDefinition py p
  | .getState p r, w => r = w.getState p
  | .events p r, w => r = (w.log p).reverse
  | .latestEventHash p r, w => r = headHash (w.log p)
  | .createOrReplayPathway d fp s key r, w => r = (w.createOrReplayPathway d fp s key).1
  | .transitionWithEvent p a b e r, w => r = (w.transitionWithEvent p a b e).1
  | .appendEvent e r, w => r = (w.appendEvent e).1
  | .begin p q fp r, w => ∃ ord, (∀ x ∈ order, ord = x) ∧ r = (w.attempts.begin ord p q fp).1
  | .finish x res r, w => r = (w.attempts.finish x res).1
  | .discardStarted x r, w => r = (w.attempts.discardStarted x).1
  | .getAttempt x r, w => r = w.getAttempt x
  | _, _ => True

namespace World

variable (w : World) (p q : String)

@[simp] theorem log_push (e : EvidenceEvent) :
    (w.push e).log p = if e.pathwayId = p then e :: w.log p else w.log p := by
  simp only [log, push, List.filter_cons, decide_eq_true_eq]

@[simp] theorem state_push (e : EvidenceEvent) : (w.push e).state p = w.state p := rfl

@[simp] theorem definitionJson_push (e : EvidenceEvent) :
    (w.push e).definitionJson p = w.definitionJson p := rfl

@[simp] theorem attempts_push (e : EvidenceEvent) : (w.push e).attempts = w.attempts := rfl

@[simp] theorem state_create (row : PathwayRow) :
    (w.create p row).state q = if q = p then some row.state else w.state q := by
  unfold state create
  split_ifs with h
  · rw [h, AList.lookup_insert]
    rfl
  · rw [AList.lookup_insert_ne h]

@[simp] theorem definitionJson_create (row : PathwayRow) : (w.create p row).definitionJson q =
    if q = p then some row.definitionJson else w.definitionJson q := by
  unfold definitionJson create
  split_ifs with h
  · rw [h, AList.lookup_insert]
    rfl
  · rw [AList.lookup_insert_ne h]

@[simp] theorem events_create (row : PathwayRow) : (w.create p row).events = w.events := rfl

@[simp] theorem log_create (row : PathwayRow) : (w.create p row).log q = w.log q := rfl

@[simp] theorem attempts_create (row : PathwayRow) : (w.create p row).attempts = w.attempts := rfl

theorem events_setState (s : PathwayState) : (w.setState p s).events = w.events := by
  unfold setState
  split <;> rfl

@[simp] theorem log_setState (s : PathwayState) : (w.setState p s).log q = w.log q := by
  unfold log
  rw [events_setState]

@[simp] theorem attempts_setState (s : PathwayState) : (w.setState p s).attempts = w.attempts := by
  unfold setState
  split <;> rfl

theorem state_setState (s : PathwayState) : (w.setState p s).state q =
    if q = p then (w.state p).map fun _ => s else w.state q := by
  unfold setState
  cases h : w.pathways.lookup p with
  | none =>
    have : w.state p = none := by rw [state, h]; rfl
    dsimp only
    split_ifs with hq
    · rw [hq, this]
      rfl
    · rfl
  | some row =>
    have : w.state p = some row.state := by rw [state, h]; rfl
    dsimp only
    rw [state_create, this]
    rfl

@[simp] theorem definitionJson_setState (s : PathwayState) :
    (w.setState p s).definitionJson q = w.definitionJson q := by
  unfold setState
  cases h : w.pathways.lookup p with
  | none => rfl
  | some row =>
    dsimp only
    rw [definitionJson_create]
    split_ifs with hq
    · rw [hq, definitionJson, h]
      rfl
    · rfl

@[simp] theorem log_commit (s : PathwayState) (e : EvidenceEvent) : (w.commit p s e).log q =
    if e.pathwayId = q then e :: w.log q else w.log q := by
  rw [commit, log_push, log_setState]

theorem events_commit (s : PathwayState) (e : EvidenceEvent) :
    (w.commit p s e).events = e :: w.events := by
  rw [commit, push, events_setState]

@[simp] theorem attempts_commit (s : PathwayState) (e : EvidenceEvent) :
    (w.commit p s e).attempts = w.attempts := attempts_setState w p s

theorem state_commit (s : PathwayState) (e : EvidenceEvent) : (w.commit p s e).state q =
    if q = p then (w.state p).map fun _ => s else w.state q := state_setState w p q s

@[simp] theorem definitionJson_commit (s : PathwayState) (e : EvidenceEvent) :
    (w.commit p s e).definitionJson q = w.definitionJson q := definitionJson_setState w p q s

@[simp] theorem state_withAttempts (l : Ledger) : (w.withAttempts l).state p = w.state p := rfl

@[simp] theorem definitionJson_withAttempts (l : Ledger) :
    (w.withAttempts l).definitionJson p = w.definitionJson p := rfl

@[simp] theorem log_withAttempts (l : Ledger) : (w.withAttempts l).log p = w.log p := rfl

@[simp] theorem events_withAttempts (l : Ledger) : (w.withAttempts l).events = w.events := rfl

@[simp] theorem attempts_withAttempts (l : Ledger) : (w.withAttempts l).attempts = l := rfl

variable {w p q}

theorem getState_ok {s : PathwayState} : w.getState p = .ok s ↔ w.state p = some s := by
  unfold getState
  cases w.state p <;> simp

theorem state_isSome_iff : (w.state p).isSome ↔ (w.definitionJson p).isSome := by
  unfold state definitionJson
  cases w.pathways.lookup p <;> simp

theorem insertEvent_ok {e : EvidenceEvent} {w' : World} (h : w.insertEvent e = .ok w') :
    w' = w.push e ∧ (w.state e.pathwayId).isSome ∧ ∀ x ∈ w.events, x.eventHash ≠ e.eventHash := by
  unfold insertEvent at h
  split_ifs at h with hp hh
  cases h
  refine ⟨rfl, ?_, fun x hx hxe => hh ⟨x, hx, hxe⟩⟩
  cases hs : w.state e.pathwayId with
  | none => exact absurd (by rw [hs]; rfl) hp
  | some s => rfl

theorem appendEvent_ok {e : EvidenceEvent} (h : (w.appendEvent e).1 = .ok ()) :
    (w.appendEvent e).2 = w.push e ∧ (w.state e.pathwayId).isSome := by
  unfold appendEvent at h ⊢
  cases hi : w.insertEvent e with
  | error err => rw [hi] at h; cases h
  | ok w' => exact ⟨(insertEvent_ok hi).1, (insertEvent_ok hi).2.1⟩

theorem appendEvent_error {e : EvidenceEvent} {err : PyError}
    (h : (w.appendEvent e).1 = .error err) : (w.appendEvent e).2 = w := by
  unfold appendEvent at h ⊢
  cases hi : w.insertEvent e with
  | error err => rfl
  | ok w' => rw [hi] at h; cases h

/-- A successful compare-and-set found the expected state. -/
theorem transitionWithEvent_ok {a b : PathwayState} {e : EvidenceEvent}
    (h : (w.transitionWithEvent p a b e).1 = .ok ()) :
    w.state p = some a ∧ (w.transitionWithEvent p a b e).2 = w.commit p b e := by
  unfold transitionWithEvent at h ⊢
  cases hs : w.state p with
  | none => simp only [hs] at h; cases h
  | some found =>
    simp only [hs] at h
    by_cases hf : found ≠ a
    · rw [if_pos hf] at h
      cases h
    · rw [if_neg hf] at h
      dsimp only
      rw [if_neg hf]
      cases hi : (w.setState p b).insertEvent e with
      | error err => rw [hi] at h; cases h
      | ok w' => exact ⟨by rw [not_not.mp hf], (insertEvent_ok hi).1⟩

theorem transitionWithEvent_error {a b : PathwayState} {e : EvidenceEvent} {err : PyError}
    (h : (w.transitionWithEvent p a b e).1 = .error err) :
    (w.transitionWithEvent p a b e).2 = w := by
  unfold transitionWithEvent at h ⊢
  cases hs : w.state p with
  | none => rfl
  | some found =>
    simp only [hs] at h
    dsimp only
    split_ifs at h ⊢ with hf
    · rfl
    · cases hi : (w.setState p b).insertEvent e with
      | error err => rfl
      | ok w' => rw [hi] at h; cases h

/-- A registration that is not a replay inserts a pathway that was not there. -/
theorem createOrReplayPathway_new {d : PathwayDefinition} {fp key : String} {s s' : PathwayState}
    (h : (w.createOrReplayPathway d fp s key).1 = .ok (false, s')) :
    w.state d.pathwayId = none ∧
      (w.createOrReplayPathway d fp s key).2 = w.create d.pathwayId ⟨d.toDict, fp, s, key⟩ := by
  unfold createOrReplayPathway at h ⊢
  cases hk : w.byIdempotencyKey key with
  | some r =>
    simp only [hk] at h
    split_ifs at h
    cases h
  | none =>
    simp only [hk] at h
    dsimp only
    split_ifs at h ⊢ with hs
    exact ⟨by simpa using hs, rfl⟩

theorem createOrReplayPathway_replay {d : PathwayDefinition} {fp key : String} {s : PathwayState}
    (h : ∀ s', (w.createOrReplayPathway d fp s key).1 ≠ .ok (false, s')) :
    (w.createOrReplayPathway d fp s key).2 = w := by
  unfold createOrReplayPathway at h ⊢
  cases hk : w.byIdempotencyKey key with
  | some r =>
    dsimp only
    split_ifs <;> rfl
  | none =>
    simp only [hk] at h
    dsimp only
    split_ifs at h ⊢ with hs
    · rfl
    · exact absurd rfl (h s)

end World

/-! ### The ledger's answers -/

namespace Ledger

variable {l : Ledger} {ord : RowOrder} {p fp x : String} {r : ExecutionRequest}

theorem get_eq_some {rec : ExecutionAttemptRecord} :
    l.get x = some rec ↔ l.lookup x = some rec.toAttemptRow ∧ rec.attemptId = x := by
  obtain ⟨row, id⟩ := rec
  simp only [get, record, Option.map_eq_some_iff, ExecutionAttemptRecord.mk.injEq]
  exact ⟨fun ⟨_, h, h', h''⟩ => ⟨h' ▸ h, h''.symm⟩, fun ⟨h, h'⟩ => ⟨_, h, rfl, h'.symm⟩⟩

theorem byKey_eq_some {key : String} {rec : ExecutionAttemptRecord} (h : l.byKey p key = some rec) :
    l.lookup rec.attemptId = some rec.toAttemptRow ∧ rec.pathwayId = p ∧ rec.idempotencyKey = key := by
  obtain ⟨⟨id, row⟩, hfind, rfl⟩ := Option.map_eq_some_iff.mp h
  have hp := List.find?_some hfind
  simp only [decide_eq_true_eq] at hp
  exact ⟨AList.mem_lookup_iff.mpr (List.mem_of_find?_eq_some hfind), hp.1, hp.2⟩

/-- The row `begin` finds is a row of the ledger. -/
theorem matching_eq_some {rec : ExecutionAttemptRecord} (h : l.matching ord p r = some rec) :
    l.lookup rec.attemptId = some rec.toAttemptRow := by
  cases ord <;> rcases Option.or_eq_some_iff.mp h with h | ⟨-, h⟩
  · exact (get_eq_some.mp h).2 ▸ (get_eq_some.mp h).1
  · exact (byKey_eq_some h).1
  · exact (byKey_eq_some h).1
  · exact (get_eq_some.mp h).2 ▸ (get_eq_some.mp h).1

/-- With the row of the request's own attempt first, another row is found only without it. -/
theorem matching_attemptIdFirst {rec : ExecutionAttemptRecord}
    (h : l.matching .attemptIdFirst p r = some rec) :
    rec.attemptId = r.attemptId ∨ l.lookup r.attemptId = none := by
  rcases Option.or_eq_some_iff.mp h with h | ⟨h, -⟩
  · exact .inl (get_eq_some.mp h).2
  · exact .inr (by simpa [get] using h)

theorem matching_eq_none (h : l.matching ord p r = none) : l.lookup r.attemptId = none := by
  cases ord <;> rcases Option.or_eq_none_iff.mp h with ⟨h₁, h₂⟩
  · simpa [get] using h₁
  · simpa [get] using h₂

/-- A replay returns a row of this pathway. -/
theorem begin_replayed {rec : ExecutionAttemptRecord} (h : (l.begin ord p r fp).1 = .ok (true, rec)) :
    l.matching ord p r = some rec ∧ rec.pathwayId = p ∧ (l.begin ord p r fp).2 = l := by
  unfold begin at h ⊢
  cases hm : l.matching ord p r with
  | none => simp only [hm] at h; cases h
  | some rec' =>
    simp only [hm] at h
    dsimp only
    split_ifs at h ⊢ with hc
    cases h
    simp only [not_or, not_not] at hc
    exact ⟨rfl, hc.1, rfl⟩

/-- A fresh attempt had no row. -/
theorem begin_fresh {rec : ExecutionAttemptRecord} (h : (l.begin ord p r fp).1 = .ok (false, rec)) :
    l.matching ord p r = none ∧ rec = record r.attemptId (startedRow p r fp) ∧
      (l.begin ord p r fp).2 = l.insert r.attemptId (startedRow p r fp) := by
  unfold begin at h ⊢
  cases hm : l.matching ord p r with
  | none =>
    simp only [hm] at h
    cases h
    exact ⟨rfl, rfl, rfl⟩
  | some rec' =>
    simp only [hm] at h
    split_ifs at h
    cases h

theorem begin_error {e : PyError} (h : (l.begin ord p r fp).1 = .error e) :
    (l.begin ord p r fp).2 = l := by
  unfold begin at h ⊢
  cases hm : l.matching ord p r with
  | none => simp only [hm] at h; cases h
  | some rec' =>
    dsimp only
    split_ifs <;> rfl

/-- The row of an attempt after its outcome is stored. -/
theorem lookup_finish {res : PersistedResult} {y : String} : (l.finish x res).2.lookup y =
    if y = x then (l.lookup x).map fun row => { row with outcome := some res } else l.lookup y := by
  unfold finish
  cases h : l.lookup x with
  | none =>
    dsimp only
    split_ifs with hy
    · rw [hy, h]
      rfl
    · rfl
  | some row =>
    dsimp only
    split_ifs with hy
    · rw [hy, AList.lookup_insert]
      rfl
    · rw [AList.lookup_insert_ne hy]

theorem finish_eq_some {res : PersistedResult} {rec : ExecutionAttemptRecord}
    (h : (l.finish x res).1 = some rec) : ∃ row, l.lookup x = some row := by
  unfold finish at h
  cases hl : l.lookup x with
  | none => simp only [hl] at h; cases h
  | some row => exact ⟨row, rfl⟩

theorem finish_of_lookup {row : AttemptRow} (h : l.lookup x = some row) (res : PersistedResult) :
    ∃ rec, (l.finish x res).1 = some rec := by
  unfold finish
  rw [h]
  exact ⟨_, rfl⟩

/-- A discarded row had no outcome. -/
theorem discardStarted_true (h : (l.discardStarted x).1 = true) :
    (∃ row, l.lookup x = some row ∧ row.outcome = none) ∧ (l.discardStarted x).2 = l.erase x := by
  unfold discardStarted at h ⊢
  cases hl : l.lookup x with
  | none => simp only [hl] at h; cases h
  | some row =>
    simp only [hl] at h
    dsimp only
    split_ifs at h ⊢ with ho
    exact ⟨⟨row, rfl, by simpa using ho⟩, rfl⟩

theorem discardStarted_false (h : (l.discardStarted x).1 = false) : (l.discardStarted x).2 = l := by
  unfold discardStarted at h ⊢
  cases hl : l.lookup x with
  | none => rfl
  | some row =>
    simp only [hl] at h
    dsimp only
    split_ifs at h ⊢
    rfl

/-- Discarding removes rows only. -/
theorem lookup_discardStarted {y : String} {row : AttemptRow}
    (h : (l.discardStarted x).2.lookup y = some row) : l.lookup y = some row := by
  cases hd : (l.discardStarted x).1 with
  | false => rwa [discardStarted_false hd] at h
  | true =>
    rw [(discardStarted_true hd).2] at h
    by_cases hy : y = x
    · rw [hy, AList.lookup_erase] at h
      cases h
    · rwa [AList.lookup_erase_ne hy] at h

theorem lookup_discardStarted_ne {y : String} (hy : y ≠ x) :
    (l.discardStarted x).2.lookup y = l.lookup y := by
  cases hd : (l.discardStarted x).1 with
  | false => rw [discardStarted_false hd]
  | true => rw [(discardStarted_true hd).2, AList.lookup_erase_ne hy]

end Ledger

/-- Events stay in the log. -/
theorem Step.log_kept (s : Step) {w : World} {p : String} {e : EvidenceEvent} (he : e ∈ w.log p) :
    e ∈ (s.effect w).log p := by
  obtain ⟨hmem, hp⟩ := List.mem_filter.mp he
  refine List.mem_filter.mpr ⟨?_, hp⟩
  cases s
  case createOrReplayPathway d fp st key r => rcases r with err | ⟨_ | _, st'⟩ <;> exact hmem
  case transitionWithEvent q a b event r =>
    rcases r with err | ⟨⟩
    · exact hmem
    · show e ∈ (w.commit q b event).events
      rw [World.events_commit]
      exact List.mem_cons_of_mem _ hmem
  case appendEvent event r =>
    rcases r with err | ⟨⟩
    · exact hmem
    · exact List.mem_cons_of_mem _ hmem
  case begin q r fp res => rcases res with err | ⟨_ | _, rec⟩ <;> exact hmem
  all_goals exact hmem

section Exec

variable (py : Platform) (order : Option RowOrder) (op : Op) (o : Oracle) (w : World)

/-- The response of every operation is true of the world it is made in. -/
theorem exec_answers : (label op (exec py order op o w).1).Answers py order w := by
  cases op
  case begin p q fp =>
    refine ⟨order.getD o.rowOrder, fun x hx => ?_, rfl⟩
    rw [Option.mem_def.mp hx]
    rfl
  all_goals first | exact rfl | trivial

/-- The new world depends on the step only. -/
theorem exec_effect : (exec py order op o w).2 = (label op (exec py order op o w).1).effect w := by
  cases op
  case createOrReplayPathway d fp s key =>
    simp only [exec, label]
    cases h : (w.createOrReplayPathway d fp s key).1 with
    | error e => exact World.createOrReplayPathway_replay fun s' hs => by rw [h] at hs; cases hs
    | ok r =>
      obtain ⟨replayed, s'⟩ := r
      cases replayed with
      | true => exact World.createOrReplayPathway_replay fun s'' hs => by rw [h] at hs; cases hs
      | false => exact (World.createOrReplayPathway_new h).2
  case transitionWithEvent p a b e =>
    simp only [exec, label]
    cases h : (w.transitionWithEvent p a b e).1 with
    | error e => exact World.transitionWithEvent_error h
    | ok u => exact (World.transitionWithEvent_ok h).2
  case appendEvent e =>
    simp only [exec, label]
    cases h : (w.appendEvent e).1 with
    | error e => exact World.appendEvent_error h
    | ok u => exact (World.appendEvent_ok h).1
  case begin p q fp =>
    simp only [exec, label]
    cases h : (w.attempts.begin (order.getD o.rowOrder) p q fp).1 with
    | error e => rw [Ledger.begin_error h]; rfl
    | ok r =>
      obtain ⟨replayed, rec⟩ := r
      cases replayed with
      | true => rw [(Ledger.begin_replayed h).2.2]; rfl
      | false => rw [(Ledger.begin_fresh h).2.2]; rfl
  all_goals rfl

end Exec

end Rpr
