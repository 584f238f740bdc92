import PathwayRuntime.Model.Definition

/-!
# Inspection of a definition

* `inspectPathway`: the findings of a definition and the decision they lead to.
* `inspectPathway_decision_of_invalid`: a definition with an error finding is held.
-/

set_option autoImplicit false

namespace Rpr

inductive Severity : Type
  | error
  | warning
  deriving DecidableEq

def Severity.value : Severity → String
  | error => "error"
  | warning => "warning"

structure ValidationFinding where
  code : String
  message : String
  severity : Severity
  deriving DecidableEq

structure InspectionResult where
  valid : Bool
  decision : RuntimeDecision
  findings : List ValidationFinding
  humanReturnAvailable : Bool
  degradationMode : String
  nextRequiredAuthority : Option String
  nextRequiredAction : Option String

/-- The finding of a required field that is blank. -/
def requireField (name value : String) : List ValidationFinding :=
  if isBlank value then [⟨name ++ "_missing", name ++ " is required", .error⟩] else []

/-- The findings about the bounded next actions of a route. -/
def inspectNextActions (route : ResponsibilityRoute) : List ValidationFinding :=
  if route.allowedNextActions.isEmpty then
    [⟨"route_allowed_next_actions_missing",
      "A responsibility route must bound at least one allowed next action", .error⟩]
  else if route.allowedNextActions.any isBlank then
    [⟨"route_allowed_next_actions_blank", "Responsibility route actions must be non-empty", .error⟩]
  else []

/-- The finding about the receiver of a route. -/
def inspectReceiver (route : ResponsibilityRoute) : List ValidationFinding :=
  match route.receiverEligibility with
  | .ineligible => [⟨"route_receiver_ineligible",
      "An ineligible receiver cannot be selected as the active responsibility route destination",
      .error⟩]
  | .requiresReevaluation => [⟨"route_receiver_requires_reevaluation",
      "Receiver eligibility must be reevaluated before the route is relied on", .warning⟩]
  | .eligible => []

def inspectResponsibilityRoute (pathway : PathwayDefinition) : List ValidationFinding :=
  match pathway.responsibilityRoute with
  | none => []
  | some route =>
    requireField "route_source_holder" route.sourceHolder ++
    requireField "route_destination" route.destination ++
    requireField "route_authority_class" route.authorityClass ++
    requireField "route_delegation_scope" route.delegationScope ++
    requireField "route_closure_condition" route.closureCondition ++
    requireField "route_reevaluation_condition" route.reevaluationCondition ++
    requireField "route_residual_owner" route.residualOwner ++
    inspectNextActions route ++
    (if route.residualOwner ≠ pathway.residualOwner then
      [⟨"route_residual_owner_mismatch", "Responsibility routing must preserve the pathway " ++
        "residual owner unless ownership is explicitly redesigned", .error⟩] else []) ++
    inspectReceiver route ++
    (if route.routeClass = .boundedHumanReturn ∧ isBlank pathway.humanReturnPoint then
      [⟨"bounded_human_return_point_missing",
        "A bounded human-return route requires a concrete human return point", .error⟩] else [])

/-- The action classes that need an approval authority. -/
def approvalNeeded (pathway : PathwayDefinition) : Bool :=
  pathway.actionClass ∈ [.approvalRequired, .reversibleExternal, .highImpact]

/-- The findings of a definition, in the order they are reported. -/
def inspectionFindings (pathway : PathwayDefinition) : List ValidationFinding :=
  requireField "pathway_id" pathway.pathwayId ++
  requireField "action_name" pathway.actionName ++
  requireField "decision_owner" pathway.decisionOwner ++
  requireField "execution_actor" pathway.executionActor ++
  requireField "stop_authority" pathway.stopAuthority ++
  requireField "evidence_owner" pathway.evidenceOwner ++
  requireField "repair_owner" pathway.repairOwner ++
  requireField "resume_authority" pathway.resumeAuthority ++
  requireField "residual_owner" pathway.residualOwner ++
  inspectResponsibilityRoute pathway ++
  (if approvalNeeded pathway ∧ isBlank (pathway.approvalAuthority.getD "") then
    [⟨"approval_authority_missing", "This action class requires an approval authority", .error⟩]
    else []) ++
  (if pathway.actionClass = .highImpact ∧ isBlank pathway.humanReturnPoint then
    [⟨"high_impact_human_return_point_missing",
      "A high-impact Human Gate requires a concrete human return point", .error⟩] else []) ++
  (if pathway.actionClass = .highImpact ∧ pathway.stopAuthority = pathway.executionActor then
    [⟨"stop_execution_authority_not_separated",
      "High-impact actions should separate stop authority from execution actor", .error⟩]
    else []) ++
  (if pathway.environmentTrust ∈ [.untrustedPublic, .adversarial] then
    [⟨"untrusted_environment",
      "Untrusted environments require an explicit human gate before external mutation", .warning⟩]
    else [])

/-- `value or None`. -/
def orNone (s : String) : Option String := if s = "" then none else some s

/-- The findings that make a definition invalid. -/
def inspectionErrors (pathway : PathwayDefinition) : List ValidationFinding :=
  (inspectionFindings pathway).filter fun f => f.severity = .error

/-- The decision, the degradation mode and the next required authority and action. -/
def inspectionOutcome (pathway : PathwayDefinition) :
    RuntimeDecision × String × Option String × String :=
  if !(inspectionErrors pathway).isEmpty then
    (.hold, "invalid_pathway_definition", orNone pathway.decisionOwner, "correct_pathway_definition")
  else if (inspectionFindings pathway).any fun f =>
      f.code = "route_receiver_requires_reevaluation" then
    (.hold, "route_reevaluation_required", some pathway.decisionOwner,
      "reevaluate_responsibility_route")
  else if pathway.environmentTrust = .adversarial then
    (.hold, "safe_only", some pathway.stopAuthority, "review_adversarial_environment")
  else if pathway.actionClass = .highImpact then
    (.humanGate, "limited", pathway.approvalAuthority, "perform_explicit_human_review")
  else if approvalNeeded pathway then
    (.allow, "approval_pending", pathway.approvalAuthority, "approve_or_deny")
  else
    (.allow, "full", some pathway.executionActor, "execute_bounded_action")

def inspectPathway (pathway : PathwayDefinition) : InspectionResult :=
  let outcome := inspectionOutcome pathway
  { valid := (inspectionErrors pathway).isEmpty
    decision := outcome.1
    findings := inspectionFindings pathway
    humanReturnAvailable := !isBlank pathway.humanReturnPoint
    degradationMode := outcome.2.1
    nextRequiredAuthority := outcome.2.2.1
    nextRequiredAction := some outcome.2.2.2 }

def ValidationFinding.toDict (f : ValidationFinding) : PyValue :=
  .ofFields [("code", .text f.code), ("message", .text f.message),
    ("severity", .text f.severity.value)]

def InspectionResult.toDict (r : InspectionResult) : PyValue :=
  .ofFields [("valid", .bool r.valid), ("decision", .text r.decision.value),
    ("findings", .list (r.findings.map ValidationFinding.toDict)),
    ("human_return_available", .bool r.humanReturnAvailable),
    ("degradation_mode", .text r.degradationMode),
    ("next_required_authority", .optText (r.nextRequiredAuthority.map .utf8)),
    ("next_required_action", .optText (r.nextRequiredAction.map .utf8))]

/-- An invalid definition is held, whatever else it declares. -/
theorem inspectPathway_decision_of_invalid {d : PathwayDefinition}
    (h : (inspectPathway d).valid = false) : (inspectPathway d).decision = .hold := by
  simp only [inspectPathway] at h ⊢
  rw [inspectionOutcome, if_pos (by rw [h, Bool.not_false])]

end Rpr
