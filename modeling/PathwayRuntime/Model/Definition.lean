import PathwayRuntime.Model.Mapping

/-!
# Pathway states, definitions and the canonical transition table

* `PathwayState`, `allowedTransitions`, `ensureTransition`.
* `PathwayDefinition` with `toDict`; `DecodedDefinition.fromDict`: what is built of a stored one.
* `PathwayDefinition.fromDict`: a stored definition with the declared types; `fromDict_toDict`: it is read back as it
  was submitted.
-/

set_option autoImplicit false

namespace Rpr

/-! ## States -/

inductive PathwayState : Type
  | proposed
  | awaitingApproval
  | approved
  | running
  | held
  | humanGate
  | stopped
  | partiallyCompleted
  | writeStatusUnknown
  | repairRequired
  | readyToResume
  | completed
  | denied
  | aborted
  deriving DecidableEq

namespace PathwayState

/-- The stored text of a state. -/
def value : PathwayState → String
  | proposed => "proposed"
  | awaitingApproval => "awaiting_approval"
  | approved => "approved"
  | running => "running"
  | held => "held"
  | humanGate => "human_gate"
  | stopped => "stopped"
  | partiallyCompleted => "partially_completed"
  | writeStatusUnknown => "write_status_unknown"
  | repairRequired => "repair_required"
  | readyToResume => "ready_to_resume"
  | completed => "completed"
  | denied => "denied"
  | aborted => "aborted"

theorem value_injective : Function.Injective value := by
  intro s t h
  cases s <;> cases t <;> first | rfl | exact absurd h (by decide)

end PathwayState

open PathwayState in
/-- The generated transition table. -/
def allowedTransitions : PathwayState → List PathwayState
  | proposed => [awaitingApproval, approved, denied]
  | awaitingApproval => [approved, denied, humanGate]
  | approved => [running, held, aborted]
  | running => [completed, stopped, partiallyCompleted, writeStatusUnknown, repairRequired]
  | held => [humanGate, approved, aborted]
  | humanGate => [approved, denied, aborted]
  | stopped => [repairRequired, aborted]
  | partiallyCompleted => [repairRequired]
  | writeStatusUnknown => [completed, repairRequired]
  | repairRequired => [readyToResume, aborted]
  | readyToResume => [running, aborted]
  | completed => []
  | denied => []
  | aborted => []

/-- The states nothing leaves. -/
def terminalStates : List PathwayState := [.completed, .denied, .aborted]

/-- Raise unless the table has the edge. -/
def ensureTransition (current target : PathwayState) : Except PyError Unit :=
  if target ∈ allowedTransitions current then .ok ()
  else .error (.invalidTransition
    ("Transition " ++ current.value ++ " -> " ++ target.value ++ " is not allowed"))

theorem ensureTransition_ok {current target : PathwayState} :
    ensureTransition current target = .ok () ↔ target ∈ allowedTransitions current := by
  unfold ensureTransition
  split_ifs with h <;> simp [h]

theorem allowedTransitions_terminal {s : PathwayState} (h : s ∈ terminalStates) :
    allowedTransitions s = [] := by
  cases s <;> first | rfl | exact absurd h (by decide)

/-! ## Definitions -/

inductive ActionClass : Type
  | observeOnly
  | suggestOnly
  | approvalRequired
  | reversibleExternal
  | highImpact
  | emergencyStop
  deriving DecidableEq

inductive EnvironmentTrust : Type
  | trustedInternal
  | semiTrusted
  | untrustedPublic
  | adversarial
  deriving DecidableEq

inductive RuntimeDecision : Type
  | allow
  | hold
  | humanGate
  | deny
  deriving DecidableEq

inductive ResponsibilityRouteClass : Type
  | continueAutonomously
  | aiResolveWithinDelegation
  | holdForReconciliation
  | boundedHumanReturn
  | stopAndPreserveResidue
  deriving DecidableEq

inductive ReceiverEligibility : Type
  | eligible
  | ineligible
  | requiresReevaluation
  deriving DecidableEq

def ActionClass.value : ActionClass → String
  | observeOnly => "observe_only"
  | suggestOnly => "suggest_only"
  | approvalRequired => "approval_required"
  | reversibleExternal => "reversible_external"
  | highImpact => "high_impact"
  | emergencyStop => "emergency_stop"

def EnvironmentTrust.value : EnvironmentTrust → String
  | trustedInternal => "trusted_internal"
  | semiTrusted => "semi_trusted"
  | untrustedPublic => "untrusted_public"
  | adversarial => "adversarial"

def RuntimeDecision.value : RuntimeDecision → String
  | allow => "allow"
  | hold => "hold"
  | humanGate => "human_gate"
  | deny => "deny"

def ResponsibilityRouteClass.value : ResponsibilityRouteClass → String
  | continueAutonomously => "continue_autonomously"
  | aiResolveWithinDelegation => "ai_resolve_within_delegation"
  | holdForReconciliation => "hold_for_reconciliation"
  | boundedHumanReturn => "bounded_human_return"
  | stopAndPreserveResidue => "stop_and_preserve_residue"

def ReceiverEligibility.value : ReceiverEligibility → String
  | eligible => "eligible"
  | ineligible => "ineligible"
  | requiresReevaluation => "requires_reevaluation"

/-- `Enum(value)`: the member with this value, else `ValueError`. -/
def enumOf {α : Type} (value : α → String) (members : List α) (j : Json) : Except PyError α :=
  match j with
  | .str (.utf8 s) =>
    match members.find? fun a => value a = s with
    | some a => .ok a
    | none => .error (.valueError (pyRepr s ++ " is not a valid member"))
  | _ => .error (.valueError "not a valid member")

def ActionClass.ofJson : Json → Except PyError ActionClass :=
  enumOf value [observeOnly, suggestOnly, approvalRequired, reversibleExternal, highImpact,
    emergencyStop]

def EnvironmentTrust.ofJson : Json → Except PyError EnvironmentTrust :=
  enumOf value [trustedInternal, semiTrusted, untrustedPublic, adversarial]

def ResponsibilityRouteClass.ofJson : Json → Except PyError ResponsibilityRouteClass :=
  enumOf value [continueAutonomously, aiResolveWithinDelegation, holdForReconciliation,
    boundedHumanReturn, stopAndPreserveResidue]

def ReceiverEligibility.ofJson : Json → Except PyError ReceiverEligibility :=
  enumOf value [eligible, ineligible, requiresReevaluation]

structure ResponsibilityRoute where
  routeClass : ResponsibilityRouteClass
  sourceHolder : String
  destination : String
  receiverEligibility : ReceiverEligibility
  authorityClass : String
  delegationScope : String
  unresolvedPayload : List String
  allowedNextActions : List String
  closureCondition : String
  reevaluationCondition : String
  residualOwner : String
  expiresAt : Option String

structure PathwayDefinition where
  pathwayId : String
  actionName : String
  actionClass : ActionClass
  environmentTrust : EnvironmentTrust
  decisionOwner : String
  approvalAuthority : Option String
  executionActor : String
  stopAuthority : String
  evidenceOwner : String
  repairOwner : String
  resumeAuthority : String
  humanReturnPoint : String
  residualOwner : String
  metadata : List (PyText × Json)
  responsibilityRoute : Option ResponsibilityRoute

/-- A JSON string or `null`. -/
def Json.optText : Option String → Json
  | some s => .text s
  | none => .null

def ResponsibilityRoute.toDict (r : ResponsibilityRoute) : Json :=
  .obj [("route_class", .text r.routeClass.value), ("source_holder", .text r.sourceHolder),
    ("destination", .text r.destination),
    ("receiver_eligibility", .text r.receiverEligibility.value),
    ("authority_class", .text r.authorityClass), ("delegation_scope", .text r.delegationScope),
    ("unresolved_payload", .arr (r.unresolvedPayload.map .text)),
    ("allowed_next_actions", .arr (r.allowedNextActions.map .text)),
    ("closure_condition", .text r.closureCondition),
    ("reevaluation_condition", .text r.reevaluationCondition),
    ("residual_owner", .text r.residualOwner), ("expires_at", .optText r.expiresAt)]

/-- The members every definition has. -/
def PathwayDefinition.baseFields (d : PathwayDefinition) : List (PyText × Json) :=
  [("pathway_id", .text d.pathwayId), ("action_name", .text d.actionName),
    ("action_class", .text d.actionClass.value),
    ("environment_trust", .text d.environmentTrust.value),
    ("decision_owner", .text d.decisionOwner),
    ("approval_authority", .optText d.approvalAuthority),
    ("execution_actor", .text d.executionActor), ("stop_authority", .text d.stopAuthority),
    ("evidence_owner", .text d.evidenceOwner), ("repair_owner", .text d.repairOwner),
    ("resume_authority", .text d.resumeAuthority),
    ("human_return_point", .text d.humanReturnPoint), ("residual_owner", .text d.residualOwner),
    ("metadata", .obj d.metadata)]

def PathwayDefinition.toDict (d : PathwayDefinition) : Json :=
  match d.responsibilityRoute with
  | some r => .obj (d.baseFields ++ [(("responsibility_route" : PyText), r.toDict)])
  | none => .obj d.baseFields

/-- `value[key]`. -/
def Json.getItem (j : Json) (key : String) : Except PyError Json :=
  match j.get? key with
  | some v => .ok v
  | none => .error (.keyError key)

/-- `tuple(str(item) for item in value.get(key, []))`. -/
def Json.texts (py : Platform) (j : Json) (key : String) : Except PyError (List String) :=
  match j.get? key with
  | none => .ok []
  | some (.arr items) => .ok (items.map py.str)
  | some (.str s) => .ok ((chars s).map py.str)
  | some (.obj fields) => .ok (fields.map fun f => py.str (.str f.1))
  | some _ => .error (.typeError "not iterable")

/-- `None if value.get(key) is None else str(value[key])`. -/
def Json.optStr (py : Platform) (j : Json) (key : String) : Option String :=
  match j.get? key with
  | none | some .null => none
  | some v => some (py.str v)

def ResponsibilityRoute.fromDict (py : Platform) (j : Json) : Except PyError ResponsibilityRoute := do
  let routeClass ← ResponsibilityRouteClass.ofJson (← j.getItem "route_class")
  let sourceHolder ← j.getItem "source_holder"
  let destination ← j.getItem "destination"
  let receiverEligibility ← ReceiverEligibility.ofJson (← j.getItem "receiver_eligibility")
  let authorityClass ← j.getItem "authority_class"
  let delegationScope ← j.getItem "delegation_scope"
  let unresolvedPayload ← j.texts py "unresolved_payload"
  let allowedNextActions ← j.texts py "allowed_next_actions"
  let closureCondition ← j.getItem "closure_condition"
  let reevaluationCondition ← j.getItem "reevaluation_condition"
  let residualOwner ← j.getItem "residual_owner"
  return {
    routeClass, receiverEligibility, unresolvedPayload, allowedNextActions
    sourceHolder := py.str sourceHolder
    destination := py.str destination
    authorityClass := py.str authorityClass
    delegationScope := py.str delegationScope
    closureCondition := py.str closureCondition
    reevaluationCondition := py.str reevaluationCondition
    residualOwner := py.str residualOwner
    expiresAt := j.optStr py "expires_at" }

/-- `dict(value.get(key, {}))`. -/
def Json.mapping (j : Json) (key : String) : Except PyError (List (Json × Json)) :=
  match j.get? key with
  | none => .ok []
  | some v => v.asItems

/-- A definition as `from_dict` builds it: nothing checks that the approval authority is a text or `None`, and that
the keys of the metadata are texts. -/
structure DecodedDefinition where
  pathwayId : String
  actionName : String
  actionClass : ActionClass
  environmentTrust : EnvironmentTrust
  decisionOwner : String
  approvalAuthority : Json
  executionActor : String
  stopAuthority : String
  evidenceOwner : String
  repairOwner : String
  resumeAuthority : String
  humanReturnPoint : String
  residualOwner : String
  metadata : List (Json × Json)
  responsibilityRoute : Option ResponsibilityRoute

/-- `PathwayDefinition.from_dict`. -/
def DecodedDefinition.fromDict (py : Platform) (j : Json) : Except PyError DecodedDefinition := do
  let responsibilityRoute ← match j.get? "responsibility_route" with
    | none | some .null => .ok none
    | some r => (ResponsibilityRoute.fromDict py r).map some
  let pathwayId ← j.getItem "pathway_id"
  let actionName ← j.getItem "action_name"
  let actionClass ← ActionClass.ofJson (← j.getItem "action_class")
  let environmentTrust ← EnvironmentTrust.ofJson (← j.getItem "environment_trust")
  let decisionOwner ← j.getItem "decision_owner"
  let executionActor ← j.getItem "execution_actor"
  let stopAuthority ← j.getItem "stop_authority"
  let evidenceOwner ← j.getItem "evidence_owner"
  let repairOwner ← j.getItem "repair_owner"
  let resumeAuthority ← j.getItem "resume_authority"
  let humanReturnPoint ← j.getItem "human_return_point"
  let residualOwner ← j.getItem "residual_owner"
  let metadata ← j.mapping "metadata"
  return {
    actionClass, environmentTrust, metadata, responsibilityRoute
    approvalAuthority := (j.get? "approval_authority").getD .null
    pathwayId := py.str pathwayId
    actionName := py.str actionName
    decisionOwner := py.str decisionOwner
    executionActor := py.str executionActor
    stopAuthority := py.str stopAuthority
    evidenceOwner := py.str evidenceOwner
    repairOwner := py.str repairOwner
    resumeAuthority := py.str resumeAuthority
    humanReturnPoint := py.str humanReturnPoint
    residualOwner := py.str residualOwner }

/-- The members of every definition, but its metadata. -/
def DecodedDefinition.baseFields (d : DecodedDefinition) : List (PyText × Json) :=
  [("pathway_id", .text d.pathwayId), ("action_name", .text d.actionName),
    ("action_class", .text d.actionClass.value),
    ("environment_trust", .text d.environmentTrust.value),
    ("decision_owner", .text d.decisionOwner), ("approval_authority", d.approvalAuthority),
    ("execution_actor", .text d.executionActor), ("stop_authority", .text d.stopAuthority),
    ("evidence_owner", .text d.evidenceOwner), ("repair_owner", .text d.repairOwner),
    ("resume_authority", .text d.resumeAuthority),
    ("human_return_point", .text d.humanReturnPoint), ("residual_owner", .text d.residualOwner)]

/-- The route, if there is one. -/
def DecodedDefinition.routeFields (d : DecodedDefinition) : List (PyText × Json) :=
  match d.responsibilityRoute with
  | some r => [("responsibility_route", r.toDict)]
  | none => []

/-- `PathwayDefinition.to_dict`, with these members for the metadata. -/
def DecodedDefinition.toDict (d : DecodedDefinition) (metadata : List (PyText × Json)) : Json :=
  .obj (d.baseFields ++ (PyText.utf8 "metadata", Json.obj metadata) :: d.routeFields)

/-- The items of an object. -/
def Json.itemsOf (fields : List (PyText × Json)) : List (Json × Json) := fields.map fun f => (.str f.1, f.2)

/-- The text of an approval authority, or `None`. -/
def Json.optRole : Json → Option (Option String)
  | .null => some none
  | .str (.utf8 s) => some (some s)
  | _ => none

/-- The definition, if its approval authority and its metadata have the declared types. Those that `to_dict` wrote do;
the runtime is modelled for no others. -/
def DecodedDefinition.typed (d : DecodedDefinition) : Except PyError PathwayDefinition :=
  match d.approvalAuthority.optRole, Json.textFields d.metadata with
  | some approvalAuthority, some metadata => .ok { d with approvalAuthority, metadata }
  | _, _ => .error (.typeError "not of the declared types")

/-- `PathwayDefinition.from_dict`, for a definition with the declared types. -/
def PathwayDefinition.fromDict (py : Platform) (j : Json) : Except PyError PathwayDefinition := do
  let d ← DecodedDefinition.fromDict py j
  d.typed

/-! ## Round trip -/

@[simp] theorem ActionClass.ofJson_value (a : ActionClass) :
    ActionClass.ofJson (.text a.value) = .ok a := by
  cases a <;> rfl

@[simp] theorem EnvironmentTrust.ofJson_value (a : EnvironmentTrust) :
    EnvironmentTrust.ofJson (.text a.value) = .ok a := by
  cases a <;> rfl

@[simp] theorem ResponsibilityRouteClass.ofJson_value (a : ResponsibilityRouteClass) :
    ResponsibilityRouteClass.ofJson (.text a.value) = .ok a := by
  cases a <;> rfl

@[simp] theorem ReceiverEligibility.ofJson_value (a : ReceiverEligibility) :
    ReceiverEligibility.ofJson (.text a.value) = .ok a := by
  cases a <;> rfl

theorem map_str_text (py : Platform) (xs : List String) :
    (xs.map Json.text).map py.str = xs := by
  induction xs with
  | nil => rfl
  | cons x xs ih => simp only [List.map_cons, py.str_text, ih]

theorem Json.optStr_eq {py : Platform} {j : Json} {key : String} {x : Option String}
    (h : j.get? key = some (Json.optText x)) : j.optStr py key = x := by
  unfold Json.optStr
  rw [h]
  cases x with
  | none => rfl
  | some s => exact congrArg some (py.str_text s)

theorem Json.optRole_optText (x : Option String) : (Json.optText x).optRole = some x := by
  cases x <;> rfl

theorem Json.mapping_eq {j : Json} {key : String} {fields : List (PyText × Json)}
    (h : j.get? key = some (.obj fields)) : j.mapping key = .ok (itemsOf fields) := by
  rw [Json.mapping, h]
  rfl

theorem ResponsibilityRoute.fromDict_toDict (py : Platform) (r : ResponsibilityRoute) :
    ResponsibilityRoute.fromDict py r.toDict = .ok r := by
  have hup := map_str_text py r.unresolvedPayload
  have han := map_str_text py r.allowedNextActions
  have hex : r.toDict.optStr py "expires_at" = r.expiresAt := Json.optStr_eq rfl
  unfold ResponsibilityRoute.fromDict
  rw [hex]
  simp [ResponsibilityRoute.toDict, Json.getItem, Json.texts, Json.get?, List.lookup_cons, py.str_text,
    bind, Except.bind, pure, Except.pure]
  simp only [List.map_map] at hup han
  rw [hup, han]

/-- What is decoded survives storage. -/
theorem DecodedDefinition.fromDict_toDict (py : Platform) (d : DecodedDefinition) (metadata : List (PyText × Json)) :
    fromDict py (d.toDict metadata) = .ok { d with metadata := Json.itemsOf metadata } := by
  unfold fromDict
  rw [@Json.mapping_eq _ _ metadata rfl]
  cases hroute : d.responsibilityRoute with
  | none =>
    simp [toDict, baseFields, routeFields, hroute, Json.getItem, Json.get?, List.lookup_cons, py.str_text,
      bind, Except.bind, pure, Except.pure]
  | some r =>
    obtain ⟨fields, hfields⟩ : ∃ fields, r.toDict = .obj fields := ⟨_, rfl⟩
    simp [toDict, baseFields, routeFields, hroute, Json.getItem, Json.get?, List.lookup_cons, py.str_text,
      bind, Except.bind, pure, Except.pure, hfields, hfields ▸ r.fromDict_toDict py, Except.map]

/-- The definition as it is decoded. -/
def PathwayDefinition.decoded (d : PathwayDefinition) : DecodedDefinition :=
  { d with
    approvalAuthority := .optText d.approvalAuthority
    metadata := Json.itemsOf d.metadata }

theorem PathwayDefinition.toDict_decoded (d : PathwayDefinition) : d.decoded.toDict d.metadata = d.toDict := by
  rw [toDict, DecodedDefinition.toDict, DecodedDefinition.routeFields]
  cases hroute : d.responsibilityRoute with
  | none => simp only [decoded, hroute]; rfl
  | some r => simp only [decoded, hroute]; rfl

theorem PathwayDefinition.typed_decoded (d : PathwayDefinition) : d.decoded.typed = .ok d := by
  simp only [DecodedDefinition.typed, decoded, Json.optRole_optText, Json.itemsOf, Json.textFields_asItems]

/-- **A definition survives storage.** -/
theorem PathwayDefinition.fromDict_toDict (py : Platform) (d : PathwayDefinition) :
    PathwayDefinition.fromDict py d.toDict = .ok d := by
  rw [PathwayDefinition.fromDict, ← d.toDict_decoded, DecodedDefinition.fromDict_toDict]
  exact d.typed_decoded

end Rpr
