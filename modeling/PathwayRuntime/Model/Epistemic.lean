import PathwayRuntime.Python.Exception

/-!
# Epistemic claims and the gate of their use

* `EpistemicClaim.validate`: what a claim must carry in its state.
* `evaluateClaimUse`: the decision on one use of a claim, in the order of its checks.
-/

set_option autoImplicit false

namespace Rpr

inductive ClaimClass : Type
  | creative
  | inference
  | factual
  | statisticOrQuotation
  | highImpact
  deriving DecidableEq, Repr

inductive VerificationState : Type
  | proposed
  | sourceAttached
  | sourceRetrieved
  | sourceSupportsClaim
  | conflictingEvidence
  | unverified
  | humanReviewed
  | approvedForUse
  deriving DecidableEq, Repr

inductive UseContext : Type
  | internalDraft
  | externalMessage
  | publication
  | highImpactAction
  deriving DecidableEq, Repr

inductive ClaimDecision : Type
  | allow
  | hold
  | humanGate
  | deny
  deriving DecidableEq, Repr

/-! ## Validation -/

structure ClaimEvidence where
  evidenceId : PyText
  artifactSha256 : PyText
  sourceLocator : PyText
  verifier : PyText
  independent : Bool := false
  supportsClaim : Option Bool := none
  deriving DecidableEq

structure EpistemicClaim where
  claimId : PyText
  text : PyText
  claimClass : ClaimClass
  verificationState : VerificationState
  evidence : List ClaimEvidence := []
  assumptions : List PyText := []
  conflictNotes : List PyText := []
  reviewOwner : Option PyText := none
  approvalAuthority : Option PyText := none
  residualOwner : Option PyText := none
  deriving DecidableEq

/-- `not s.strip()`. -/
def PyText.stripsEmpty (s : PyText) : Bool := s.strip.length == 0

/-- `not s or not s.strip()`. -/
def absentOrBlank : Option PyText → Bool
  | none => true
  | some s => s.length == 0 || s.stripsEmpty

/-- A check of `validate`. -/
def require (failed : Bool) (message : String) : Except PyException Unit :=
  if failed then .error (.valueError message) else .ok ()

section Validate

-- `str.lower`
variable (lower : PyText → PyText)

/-- `_validate_sha256`. -/
def validateSha256 (value : PyText) : Except PyException Unit :=
  require (value.length != 64 ||
    (lower value).codes.any fun c => !("0123456789abcdef".toList.map Char.toNat).contains c)
    "evidence reference must be SHA-256"

def ClaimEvidence.validate (item : ClaimEvidence) : Except PyException Unit := do
  require (item.evidenceId.stripsEmpty || item.sourceLocator.stripsEmpty || item.verifier.stripsEmpty)
    "evidence id, source locator, and verifier are required"
  validateSha256 lower item.artifactSha256

/-- `item.supports_claim is True`. -/
def ClaimEvidence.supports (item : ClaimEvidence) : Bool := item.supportsClaim == some true

def EpistemicClaim.validate (claim : EpistemicClaim) : Except PyException Unit := do
  let state := claim.verificationState
  require (claim.claimId.stripsEmpty || claim.text.stripsEmpty) "claim id and text are required"
  claim.evidence.forM (ClaimEvidence.validate lower)
  require ((claim.evidence.map (·.evidenceId)).dedup.length != claim.evidence.length) "duplicate evidence id"
  require ([.sourceAttached, .sourceRetrieved, .sourceSupportsClaim, .humanReviewed, .approvedForUse].contains state &&
    claim.evidence.isEmpty) "verification state requires evidence"
  require (state == .sourceSupportsClaim && !claim.evidence.any (·.supports))
    "supported state requires supporting evidence"
  require (state == .conflictingEvidence && claim.conflictNotes.isEmpty)
    "conflicting evidence requires conflict notes"
  require ([.humanReviewed, .approvedForUse].contains state && absentOrBlank claim.reviewOwner)
    "reviewed claims require a review owner"
  require (state == .approvedForUse && absentOrBlank claim.approvalAuthority)
    "approved claims require approval authority"
  require (state == .approvedForUse && absentOrBlank claim.residualOwner)
    "approved claims require residual owner"

end Validate

/-! ## The gate -/

structure ClaimGateResult where
  claimId : PyText
  useContext : UseContext
  decision : ClaimDecision
  reasonCodes : List String
  deriving DecidableEq

/-- The states in which a statement of fact may be used. -/
def VerificationState.isVerified (state : VerificationState) : Bool :=
  [.sourceSupportsClaim, .humanReviewed, .approvedForUse].contains state

/-- The states nobody has looked at. -/
def VerificationState.isOpen (state : VerificationState) : Bool := [.proposed, .unverified].contains state

/-- What `evaluate_claim_use` answers on a claim that validates: the decision and its reasons. -/
def EpistemicClaim.gate (claim : EpistemicClaim) (context : UseContext) : ClaimDecision × List String :=
  let state := claim.verificationState
  if state = .conflictingEvidence then (.humanGate, ["conflicting_evidence"])
  else if context = .internalDraft then
    if claim.claimClass = .inference ∧ claim.assumptions = [] then (.hold, ["inference_assumptions_missing"])
    else (.allow, if state.isOpen then ["draft_must_display_unverified_status"] else [])
  else if claim.claimClass = .creative ∧ state.isOpen then (.allow, ["creative_content_must_be_labelled"])
  else if claim.claimClass = .inference ∧ claim.assumptions = [] then (.hold, ["inference_assumptions_missing"])
  else if claim.claimClass = .inference ∧ ¬ state.isVerified then (.hold, ["inference_basis_not_verified"])
  else if (claim.claimClass = .factual ∨ claim.claimClass = .statisticOrQuotation) ∧ ¬ state.isVerified then
    (.hold, ["factual_claim_not_supported"])
  else if (claim.claimClass = .factual ∨ claim.claimClass = .statisticOrQuotation) ∧
      ¬ claim.evidence.any (·.supports) then
    (.hold, ["supporting_evidence_missing"])
  else if (claim.claimClass = .highImpact ∨ context = .highImpactAction) ∧ state ≠ .approvedForUse then
    (.humanGate, ["high_impact_claim_not_approved"])
  else if (claim.claimClass = .highImpact ∨ context = .highImpactAction) ∧
      ¬ claim.evidence.any (fun item => item.independent && item.supports) then
    (.humanGate, ["independent_verification_missing"])
  else if (context = .externalMessage ∨ context = .publication) ∧ state ≠ .approvedForUse then
    (.humanGate, ["external_use_not_approved"])
  else (.allow, [])

/-- `evaluate_claim_use`. -/
def evaluateClaimUse (lower : PyText → PyText) (claim : EpistemicClaim) (context : UseContext) :
    Except PyException ClaimGateResult := do
  claim.validate lower
  let (decision, reasons) := claim.gate context
  .ok ⟨claim.claimId, context, decision, reasons⟩

end Rpr
