import PathwayRuntime.Model.System

/-!
# Where in its program a call stands

A call knows the world only through the steps it has made. Here its own steps, newest first, are
sorted by the point of the program they lead to, and each write is justified by such a point.

* `Admitted`, `Begun`, `Cleared`, `Dispatched`, `Resolved`: the points of `execute`.
* `ReconcileAdmitted`, `Observed`, `Reconciled`: the points of `reconcile`.
* `Commits`, `Appends`, `Begins`, `Finishes`, `Discards`, `Registers`: what stands before each kind
  of write.
* **`Justified`**: a step and the steps its call made before it.
-/

set_option autoImplicit false

namespace Rpr

open Resume

/-- The steps of a call, newest first. -/
abbrev Own : Type := List Step

/-- The step changes nothing and calls nobody. -/
def Step.quiet : Step → Bool
  | .createOrReplayPathway _ _ _ _ (.ok (false, _)) => false
  | .transitionWithEvent _ _ _ _ (.ok _) => false
  | .appendEvent _ (.ok _) => false
  | .begin _ _ _ (.ok (false, _)) => false
  | .finish .. => false
  | .discardStarted .. => false
  | .invokeExecutor .. => false
  | _ => true

/-- Only quiet steps were made since `base`. -/
def QuietOver (base own : Own) : Prop := ∃ extra, own = extra ++ base ∧ ∀ s ∈ extra, s.quiet

theorem QuietOver.refl (own : Own) : QuietOver own own := ⟨[], rfl, by simp⟩

theorem QuietOver.cons {base own : Own} (h : QuietOver base own) {s : Step} (hs : s.quiet) :
    QuietOver base (s :: own) := by
  obtain ⟨extra, rfl, hq⟩ := h
  exact ⟨s :: extra, rfl, List.forall_mem_cons.mpr ⟨hs, hq⟩⟩

theorem QuietOver.trans {a b c : Own} (hab : QuietOver a b) (hbc : QuietOver b c) :
    QuietOver a c := by
  obtain ⟨x, rfl, hx⟩ := hab
  obtain ⟨y, rfl, hy⟩ := hbc
  refine ⟨y ++ x, by simp, fun s hs => ?_⟩
  rcases List.mem_append.mp hs with h | h
  · exact hy s h
  · exact hx s h

theorem Step.effect_quiet {s : Step} (h : s.quiet) (w : World) : s.effect w = w := by
  cases s
  case createOrReplayPathway d fp st key r =>
    rcases r with e | ⟨_ | _, s'⟩
    · rfl
    · exact absurd h Bool.false_ne_true
    · rfl
  case transitionWithEvent p a b e r =>
    cases r with
    | error e => rfl
    | ok u => exact absurd h Bool.false_ne_true
  case appendEvent e r =>
    cases r with
    | error e => rfl
    | ok u => exact absurd h Bool.false_ne_true
  case begin p q fp r =>
    rcases r with e | ⟨_ | _, rec⟩
    · rfl
    · exact absurd h Bool.false_ne_true
    · rfl
  case finish => exact absurd h Bool.false_ne_true
  case discardStarted => exact absurd h Bool.false_ne_true
  all_goals rfl

/-! ## Events -/

section Events

variable (py : Platform) (policy : RedactionPolicy)

/-- An event was built right after `base`, from the head of the log read there. -/
def Sealed (pathwayId eventType actor : String) (payload : List (String × PyValue))
    (base own : Own) (event : EvidenceEvent) : Prop :=
  ∃ h safe t, own = .now t :: .latestEventHash pathwayId h :: base ∧
    policy.redact py (.ofFields payload) = .ok safe ∧
    sealEvent py pathwayId eventType actor safe t h = .ok event

/-- An event was built and appended right after `base`. -/
def Recorded (pathwayId : String) (base own : Own) : Prop :=
  ∃ event h t, own = .appendEvent event (.ok ()) :: .now t :: .latestEventHash pathwayId h :: base

end Events

/-- An edge was read and authorised right after `base`. -/
def Checked (pathwayId : String) (d : PathwayDefinition) (current target : PathwayState)
    (actor : String) (base own : Own) : Prop :=
  own = .getDefinition pathwayId (.ok d) :: .getState pathwayId (.ok current) :: base ∧
    ensureTransition current target = .ok () ∧
    authorizeTransition d current target actor = .ok ()

/-! ## The points of `execute` -/

section Execute

variable (py : Platform) (policy : RedactionPolicy) (pathwayId : String)
  (request : ExecutionRequest) (actor : String)

/-- The caller may execute, and a running pathway is bound to the attempt. -/
inductive Admitted : Own → Prop
  | idle {d : PathwayDefinition} {s : PathwayState}
      (hauth : authorizeExecutionAccess d actor = .ok ()) (hs : s ≠ .running) :
      Admitted [.getState pathwayId (.ok s), .getDefinition pathwayId (.ok d)]
  | running {d : PathwayDefinition} {events : List EvidenceEvent}
      (hauth : authorizeExecutionAccess d actor = .ok ())
      (hbound : activeAttempt events.reverse = .ok request.attemptId) :
      Admitted [.events pathwayId events, .getState pathwayId (.ok .running),
        .getDefinition pathwayId (.ok d)]

/-- The attempt has a fresh row, either at once or after a started one was discarded. -/
inductive Begun : Own → Prop
  | fresh {fp : String} {rec : ExecutionAttemptRecord} {own : Own}
      (h : Admitted pathwayId request actor own) :
      Begun (.begin pathwayId request fp (.ok (false, rec)) :: own)
  | restarted {fp fp' : String} {rec rec' : ExecutionAttemptRecord} {base own : Own}
      (h : Admitted pathwayId request actor base) (hrec : rec.outcome = none)
      (hown : Recorded pathwayId (.begin pathwayId request fp' (.ok (false, rec')) ::
        .discardStarted request.attemptId true :: .getState pathwayId (.ok .approved) ::
        .begin pathwayId request fp (.ok (true, rec)) :: base) own) :
      Begun own

/-- What is checked and read before the commit of `execution_started`. -/
def Starting (current : PathwayState) (event : EvidenceEvent) (base own : Own) : Prop :=
  ∃ d mid, Checked pathwayId d current .running actor
      (.getState pathwayId (.ok .approved) :: base) mid ∧
    Sealed py policy pathwayId "execution_started" actor
      (edgeFields current .running ++ (request.fields ++ [("reason", .text "execution_started")]))
      mid own event

/-- The executor may be invoked: the call moved the pathway to `RUNNING`, or found it there. -/
inductive Cleared : Own → Prop
  | started {current : PathwayState} {event : EvidenceEvent} {base own : Own}
      (h : Begun pathwayId request actor base)
      (hstart : Starting py policy pathwayId request actor current event base own) :
      Cleared (.transitionWithEvent pathwayId current .running event (.ok ()) :: own)
  | running {own : Own} (h : Begun pathwayId request actor own) :
      Cleared (.getState pathwayId (.ok .running) :: own)

/-- The executor was just invoked and led to this result. -/
inductive Dispatched : ExecutionResult → Own → Prop
  | mk {outcome : ExecutorOutcome} {own : Own}
      (h : Cleared py policy pathwayId request actor own) :
      Dispatched outcome.result (.invokeExecutor pathwayId request outcome :: own)

/-- The call has a persisted result: one it found, or its own. -/
inductive Resolved : ExecutionResult → Own → Prop
  | replayed {fp : String} {rec : ExecutionAttemptRecord} {stored : PersistedResult}
      {result : ExecutionResult} {own : Own} (h : Admitted pathwayId request actor own)
      (hrec : rec.outcome = some stored) (hresult : resultFromAttempt stored.json = .ok result) :
      Resolved result (.begin pathwayId request fp (.ok (true, rec)) :: own)
  | settled {p : PersistedResult} {rec : ExecutionAttemptRecord} {result : ExecutionResult}
      {base own : Own} (h : Dispatched py policy pathwayId request actor result base)
      (hp : persistResult result = .ok p)
      (hown : Recorded pathwayId (.finish request.attemptId p (some rec) :: base) own) :
      Resolved result own

/-- Where `execute` calls `transition`, with which target and actor. -/
inductive Moves : PathwayState → String → Own → Prop
  | completed {result : ExecutionResult} {reason : PyText} {own : Own}
      (h : Resolved py policy pathwayId request actor result own)
      (hr : result.finalTarget = some (.completed, reason)) :
      Moves .completed actor (.getState pathwayId (.ok .running) :: own)
  | failed {result : ExecutionResult} {reason : PyText} {d : PathwayDefinition} {own : Own}
      (h : Resolved py policy pathwayId request actor result own)
      (hr : result.finalTarget = some (.repairRequired, reason)) :
      Moves .repairRequired d.repairOwner (.getDefinition pathwayId (.ok d) ::
        .getState pathwayId (.ok .running) :: own)
  | unknown {result : ExecutionResult} {s : PathwayState} {own : Own}
      (h : Resolved py policy pathwayId request actor result own)
      (hr : result.finalTarget = none) (hs : s ≠ .writeStatusUnknown) :
      Moves .writeStatusUnknown actor (.getState pathwayId (.ok s) :: own)
  | rejected {reason : String} {result : ExecutionResult} {base own : Own}
      {r : Option ExecutionAttemptRecord}
      (h : Dispatched py policy pathwayId request actor result base)
      (hown : Recorded pathwayId (.finish request.attemptId (unknownResult reason) r :: base) own) :
      Moves .writeStatusUnknown actor own
  | unresolved {fp : String} {rec : ExecutionAttemptRecord} {own : Own}
      (h : Admitted pathwayId request actor own) (hrec : rec.outcome = none) :
      Moves .writeStatusUnknown actor (.getState pathwayId (.ok .running) ::
        .begin pathwayId request fp (.ok (true, rec)) :: own)

/-- The reads of `_finish_execution_pathway` on a pathway in `WRITE_STATUS_UNKNOWN`. -/
inductive LateBase (result : ExecutionResult) (own : Own) : Own → Prop
  | completed (hr : result.status ≠ .failed) :
      LateBase result own (.getState pathwayId (.ok .writeStatusUnknown) :: own)
  | failed {d : PathwayDefinition} (hr : result.status = .failed) :
      LateBase result own (.getDefinition pathwayId (.ok d) ::
        .getState pathwayId (.ok .writeStatusUnknown) :: own)

end Execute

/-! ## The points of `reconcile` -/

section Reconcile

variable (pathwayId : String) (request : ExecutionRequest) (actor : String)

/-- The caller may reconcile, and the pathway was in a reconcilable state. -/
inductive ReconcileAdmitted : Own → Prop
  | mk {d : PathwayDefinition} {s : PathwayState}
      (hauth : authorizeReconciliationAccess d actor = .ok ()) (hs : s ∈ reconcilableStates) :
      ReconcileAdmitted [.getState pathwayId (.ok s), .getDefinition pathwayId (.ok d)]

/-- An attempt without a final result was observed. -/
inductive Observed (observed : ReconciliationResult) : Own → Prop
  | mk {fp : String} {rec : ExecutionAttemptRecord} {own : Own}
      (h : ReconcileAdmitted pathwayId actor own)
      (hrec : ∀ stored, rec.outcome = some stored → stored.status = .writeStatusUnknown) :
      Observed observed (.observe request rec (.returned observed) ::
        .begin pathwayId request fp (.ok (true, rec)) :: own)

/-- The call has a final persisted result: one it found, or the one it observed. -/
inductive Reconciled : ExecutionResult → Own → Prop
  | replayed {fp : String} {rec : ExecutionAttemptRecord} {stored : PersistedResult}
      {result : ExecutionResult} {own : Own} (h : ReconcileAdmitted pathwayId actor own)
      (hrec : rec.outcome = some stored) (hresult : resultFromAttempt stored.json = .ok result)
      (hstatus : result.status ≠ .writeStatusUnknown) :
      Reconciled result (.begin pathwayId request fp (.ok (true, rec)) :: own)
  | settled {observed : ReconciliationResult} {p : PersistedResult} {rec : ExecutionAttemptRecord}
      {own : Own} (h : Observed pathwayId request actor observed own)
      (hs : observed.status ≠ .unresolved) (hp : persistResult observed.result = .ok p) :
      Reconciled observed.result (.finish request.attemptId p (some rec) :: own)

end Reconcile

/-! ## Before each kind of write -/

/-- The method asks for this plain transition. -/
def Method.Requests (m : Method) (pathwayId : String) (target : PathwayState) (actor : String) :
    Prop :=
  match m with
  | .transition p t a _ => p = pathwayId ∧ t = target ∧ a = actor
  | .transitionAsPrincipal p t (.ok (_, a)) _ => p = pathwayId ∧ t = target ∧ a = actor
  | .markWriteUnknown p a _ => p = pathwayId ∧ target = .writeStatusUnknown ∧ a = actor
  | .requireRepair p a _ => p = pathwayId ∧ target = .repairRequired ∧ a = actor
  | _ => False

/-- The target of a reconciled result. -/
def ExecutionResult.reconciledTarget (r : ExecutionResult) : PathwayState :=
  if r.status = .succeeded then .completed else .repairRequired

variable (py : Platform) (c : Call)

/-- What stands before a state-changing commit. -/
inductive Commits (own : Own) :
    String → PathwayState → PathwayState → EvidenceEvent → Prop
  | requested {p : String} {cur target : PathwayState} {actor : String} {reason : PyText}
      {d : PathwayDefinition} {mid : Own} {event : EvidenceEvent}
      (hc : c.method.Requests p target actor) (hrun : target ≠ .running)
      (hcheck : Checked p d cur target actor [] mid)
      (hseal : Sealed py c.policy p "state_transition" actor
        (edgeFields cur target ++ [("reason", .str reason)]) mid own event) :
      Commits own p cur target event
  | moved {p : String} {cur target : PathwayState} {actor mover : String} {reason : PyText}
      {request : ExecutionRequest} {d : PathwayDefinition} {base mid : Own} {event : EvidenceEvent}
      (hc : c.method = .execute p request actor)
      (hmove : Moves py c.policy p request actor target mover base)
      (hcheck : Checked p d cur target mover base mid)
      (hseal : Sealed py c.policy p "state_transition" mover
        (edgeFields cur target ++ [("reason", .str reason)]) mid own event) :
      Commits own p cur target event
  | started {p : String} {cur : PathwayState} {actor : String} {request : ExecutionRequest}
      {base : Own} {event : EvidenceEvent} (hc : c.method = .execute p request actor)
      (h : Begun p request actor base)
      (hstart : Starting py c.policy p request actor cur event base own) :
      Commits own p cur .running event
  | late {p : String} {target : PathwayState} {actor : String} {reason : PyText}
      {request : ExecutionRequest} {result : ExecutionResult} {base mid : Own}
      {event : EvidenceEvent} (hc : c.method = .execute p request actor)
      (h : Resolved py c.policy p request actor result base)
      (hr : result.finalTarget = some (target, reason)) (hbase : LateBase p result base mid)
      (hseal : Sealed py c.policy p "execution_result_after_concurrent_unknown" actor
        (edgeFields .writeStatusUnknown target ++ (request.fields ++ result.fields ++ [])) mid own
        event) :
      Commits own p .writeStatusUnknown target event
  | reconciled {p : String} {actor : String} {request : ExecutionRequest}
      {result : ExecutionResult} {replayed : Bool} {base : Own} {event : EvidenceEvent}
      (hc : c.method = .reconcile p request actor)
      (h : Reconciled p request actor result base)
      (hseal : Sealed py c.policy p "reconciliation_result" actor
        (edgeFields .writeStatusUnknown result.reconciledTarget ++
          (request.fields ++ result.fields ++ [("replayed", .bool replayed)]))
        (.getState p (.ok .writeStatusUnknown) :: base) own event) :
      Commits own p .writeStatusUnknown result.reconciledTarget event
  | repaired {p actor prior : String} {evidence : PyDict} {reason : PyText}
      {compensation : Option CompensationRecord} {value : PyValue} {cur : PathwayState}
      {d : PathwayDefinition} {rec : ExecutionAttemptRecord} {mid : Own} {event : EvidenceEvent}
      (hc : c.method = .completeRepair p actor prior evidence reason compensation)
      (hrec : rec.pathwayId = p ∧ rec.final = some .failed)
      (hcheck : Checked p d cur .readyToResume actor [.getAttempt prior (.ok rec)] mid)
      (hseal : Sealed py c.policy p "repair_completed" actor
        (edgeFields cur .readyToResume ++ [("prior_attempt_id", .text prior),
          ("repair_evidence", .dict evidence), ("compensation", value), ("reason", .str reason)])
        mid own event) :
      Commits own p cur .readyToResume event
  | resumed {p actor prior next : String} {reason : PyText} {cur : PathwayState}
      {d : PathwayDefinition} {rec : ExecutionAttemptRecord} {key : String}
      {events : List EvidenceEvent} {mid : Own} {event : EvidenceEvent}
      (hc : c.method = .resume p actor prior next reason) (hblank : isBlank next = false)
      (hne : prior ≠ next) (hrec : rec.pathwayId = p ∧ rec.final = some .failed)
      (hrepair : latestRepair events.reverse = some prior)
      (hcheck : Checked p d cur .running actor
        [.events p events, .getAttempt next (.error (.keyError key)), .getAttempt prior (.ok rec)] mid)
      (hseal : Sealed py c.policy p "pathway_resumed" actor
        (edgeFields cur .running ++ [("prior_attempt_id", .text prior),
          ("next_attempt_id", .text next), ("reason", .str reason)]) mid own event) :
      Commits own p cur .running event
  | closed {p actor : String} {residuals : PyDict} {reason : PyText} {cur : PathwayState}
      {d : PathwayDefinition} {event : EvidenceEvent}
      (hc : c.method = .abortWithResiduals p actor residuals reason)
      (hres : residuals ≠ []) (hactor : isBlank actor = false ∧ actor = d.residualOwner)
      (hedge : ensureTransition cur .aborted = .ok ())
      (hseal : Sealed py c.policy p "residual_closure" actor
        (edgeFields cur .aborted ++ [("residual_owner", .text d.residualOwner),
          ("residuals", .dict residuals), ("reason", .str reason)])
        [.getDefinition p (.ok d), .getState p (.ok cur)] own event) :
      Commits own p cur .aborted event

/-- The types of the events that bind an attempt or complete its repair. -/
def cycleTypes : List String := ["execution_started", "pathway_resumed", "repair_completed"]

/-- What stands before an appended event: it is an event of the pathway of the call, it has another
type, and was built from a payload that names no target. -/
def Appends (own : Own) (event : EvidenceEvent) : Prop :=
  ∃ p eventType actor payload base, c.method.pathwayId = p ∧ eventType ∉ cycleTypes ∧
    "to" ∉ payload.map Prod.fst ∧ Sealed py c.policy p eventType actor payload base own event

/-- What stands before `ledger.begin`. -/
inductive Begins (own : Own) : String → ExecutionRequest → Prop
  | execute {p actor : String} {request : ExecutionRequest}
      (hc : c.method = .execute p request actor) (h : Admitted p request actor own) :
      Begins own p request
  | again {p actor fp : String} {request : ExecutionRequest} {rec : ExecutionAttemptRecord}
      {base : Own} (hc : c.method = .execute p request actor) (h : Admitted p request actor base)
      (hrec : rec.outcome = none)
      (hown : own = .discardStarted request.attemptId true :: .getState p (.ok .approved) ::
        .begin p request fp (.ok (true, rec)) :: base) :
      Begins own p request
  | reconcile {p actor : String} {request : ExecutionRequest}
      (hc : c.method = .reconcile p request actor) (h : ReconcileAdmitted p actor own) :
      Begins own p request

/-- What stands before an outcome is stored. -/
inductive Finishes (own : Own) : String → PersistedResult → Prop
  | executed {p actor : String} {request : ExecutionRequest} {result : ExecutionResult}
      {res : PersistedResult} (hc : c.method = .execute p request actor)
      (h : Dispatched py c.policy p request actor result own)
      (hres : persistResult result = .ok res ∨ ∃ reason, res = unknownResult reason) :
      Finishes own request.attemptId res
  | reconciled {p actor : String} {request : ExecutionRequest} {observed : ReconciliationResult}
      {res : PersistedResult} (hc : c.method = .reconcile p request actor)
      (h : Observed p request actor observed own) (hs : observed.status ≠ .unresolved)
      (hres : persistResult observed.result = .ok res ∨ ∃ reason, res = unknownResult reason) :
      Finishes own request.attemptId res

/-- What stands before a started row is discarded. -/
inductive Discards (own : Own) : String → Prop
  | restart {p actor fp : String} {request : ExecutionRequest} {rec : ExecutionAttemptRecord}
      {base : Own} (hc : c.method = .execute p request actor) (h : Admitted p request actor base)
      (hrec : rec.outcome = none)
      (hown : own = .getState p (.ok .approved) :: .begin p request fp (.ok (true, rec)) :: base) :
      Discards own request.attemptId
  | abandoned {p actor : String} {request : ExecutionRequest} {s : PathwayState} {base mid : Own}
      (hc : c.method = .execute p request actor) (h : Begun p request actor base)
      (hmid : QuietOver base mid) (hs : s ≠ .running) (hown : own = .getState p (.ok s) :: mid) :
      Discards own request.attemptId
  | reconcile {p actor fp : String} {request : ExecutionRequest} {rec : ExecutionAttemptRecord}
      {base : Own} (hc : c.method = .reconcile p request actor)
      (h : ReconcileAdmitted p actor base)
      (hown : own = .begin p request fp (.ok (false, rec)) :: base) :
      Discards own request.attemptId

/-- What stands before a pathway is created or replayed. -/
def Registers (own : Own) (d : PathwayDefinition) (state : PathwayState) : Prop :=
  ∃ key outcome decision codes raw, c.method = .register d key ∧ own = [.evaluateRpe d outcome] ∧
    outcome.read = .ok (decision, codes, raw) ∧
    state = initialState (combine (inspectPathway d).decision decision) d.approvalAuthority.isSome

/-- What stands before the executor is invoked. -/
def Invokes (own : Own) (pathwayId : String) (request : ExecutionRequest) : Prop :=
  ∃ actor, c.method = .execute pathwayId request actor ∧
    Cleared py c.policy pathwayId request actor own

/-- **A step and the steps its call made before it.** Reads need no justification. -/
def Justified (own : Own) : Step → Prop
  | .createOrReplayPathway d _ state _ _ => Registers c own d state
  | .transitionWithEvent p cur target event _ => Commits py c own p cur target event
  | .appendEvent event _ => Appends py c own event
  | .begin p request _ _ => Begins c own p request
  | .finish x res _ => Finishes py c own x res
  | .discardStarted x _ => Discards c own x
  | .invokeExecutor p request _ => Invokes py c own p request
  | _ => True

end Rpr
