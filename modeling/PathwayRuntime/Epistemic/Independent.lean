import PathwayRuntime.Model.Epistemic

/-!
# High-impact use requires approval and independence

* `EpistemicClaim.gate_allow`: how a claim comes to be allowed.
* `EpistemicClaim.HighImpactUse`: the uses that need approval; `EpistemicClaim.Independent`: what they need.
* **`high_impact_use_iff`**: an allowed high-impact use is approved on independent evidence, unless open creative
  content is used for a high-impact action.
-/

set_option autoImplicit false

namespace Rpr

namespace EpistemicClaim

/-- A use in a high-impact action, or of a high-impact claim outside an internal draft. -/
def HighImpactUse (claim : EpistemicClaim) (context : UseContext) : Prop :=
  context = .highImpactAction ∨ claim.claimClass = .highImpact ∧ context ≠ .internalDraft

/-- Approved, on an item of evidence that is independent and supports the claim. -/
def Independent (claim : EpistemicClaim) : Prop :=
  claim.verificationState = .approvedForUse ∧
    ∃ item ∈ claim.evidence, item.independent = true ∧ item.supportsClaim = some true

/-- Creative content that nobody has looked at. -/
def OpenCreative (claim : EpistemicClaim) : Prop :=
  claim.claimClass = .creative ∧ (claim.verificationState = .proposed ∨ claim.verificationState = .unverified)

theorem isOpen_iff (state : VerificationState) : state.isOpen = true ↔ state = .proposed ∨ state = .unverified := by
  cases state <;> decide

theorem independent_of_any {claim : EpistemicClaim} (hstate : claim.verificationState = .approvedForUse)
    (h : (claim.evidence.any fun item => item.independent && item.supports) = true) : claim.Independent := by
  obtain ⟨item, hmem, hitem⟩ := List.any_eq_true.mp h
  rw [Bool.and_eq_true] at hitem
  exact ⟨hstate, item, hmem, hitem.1, beq_iff_eq.mp hitem.2⟩

/-- **How a claim comes to be allowed**: in a draft, as open creative content, or past every check. -/
theorem gate_allow {claim : EpistemicClaim} {context : UseContext} (h : (claim.gate context).1 = .allow) :
    context = .internalDraft ∨ claim.OpenCreative ∨ (claim.HighImpactUse context → claim.Independent) := by
  by_cases hdraft : context = .internalDraft
  · exact .inl hdraft
  refine .inr ?_
  by_cases hcreative : claim.OpenCreative
  · exact .inl hcreative
  refine .inr fun huse => ?_
  have huse : claim.claimClass = .highImpact ∨ context = .highImpactAction :=
    huse.symm.imp And.left id
  have hopen : ¬ (claim.claimClass = .creative ∧ claim.verificationState.isOpen = true) := by
    rw [isOpen_iff]
    exact hcreative
  simp only [gate, hdraft, if_false, hopen, huse, true_and] at h
  split_ifs at h with _ _ _ _ _ happroved hindependent
  exact independent_of_any (not_not.mp happroved) hindependent

/-- Open creative content is allowed in every context. -/
theorem gate_openCreative {claim : EpistemicClaim} (h : claim.OpenCreative) (context : UseContext) :
    (claim.gate context).1 = .allow := by
  obtain ⟨hclass, hstate⟩ := h
  have hopen := (isOpen_iff _).mpr hstate
  have hconflict : claim.verificationState ≠ .conflictingEvidence := by
    rcases hstate with h | h <;> rw [h] <;> decide
  by_cases hdraft : context = .internalDraft
  · simp [gate, hconflict, hdraft, hclass]
  · simp [gate, hconflict, hdraft, hclass, hopen]

/-- Open creative content is not approved. -/
theorem OpenCreative.not_independent {claim : EpistemicClaim} (h : claim.OpenCreative) : ¬ claim.Independent := by
  rintro ⟨happroved, -⟩
  rcases h.2 with h | h <;> exact absurd (h.symm.trans happroved) (by decide)

end EpistemicClaim

variable {lower : PyText → PyText}

theorem evaluateClaimUse_valid {claim : EpistemicClaim} {context : UseContext} {result : ClaimGateResult}
    (h : claim.validate lower = .ok ()) : evaluateClaimUse lower claim context = .ok result ↔
      (⟨claim.claimId, context, (claim.gate context).1, (claim.gate context).2⟩ : ClaimGateResult) = result := by
  simp only [evaluateClaimUse, h]
  exact ⟨Except.ok.inj, congrArg Except.ok⟩

/-- The use is allowed only if it is no high-impact use, or is approved on independent evidence. -/
def UseGuarded (lower : PyText → PyText) (claim : EpistemicClaim) (context : UseContext) : Prop :=
  ∀ result, evaluateClaimUse lower claim context = .ok result → result.decision = .allow →
    claim.HighImpactUse context → claim.Independent

/-- **High-impact use requires approval and independence** unless open creative content is used for a high-impact
action. -/
theorem high_impact_use_iff (claim : EpistemicClaim) (context : UseContext) (h : claim.validate lower = .ok ()) :
    UseGuarded lower claim context ↔ ¬ (claim.OpenCreative ∧ context = .highImpactAction) := by
  constructor
  · rintro hguarded ⟨hopen, hcontext⟩
    exact hopen.not_independent
      (hguarded _ ((evaluateClaimUse_valid h).mpr rfl) (claim.gate_openCreative hopen context) (.inl hcontext))
  · rintro hnot result hresult hallow huse
    rw [← (evaluateClaimUse_valid h).mp hresult] at hallow
    rcases EpistemicClaim.gate_allow hallow with hdraft | hopen | hpast
    · rcases huse with huse | huse
      · exact absurd (hdraft.symm.trans huse) (by decide)
      · exact absurd hdraft huse.2
    · rcases huse with huse | huse
      · exact absurd ⟨hopen, huse⟩ hnot
      · exact absurd (hopen.1.symm.trans huse.1) (by decide)
    · exact hpast huse

/-! ## Two claims -/

/-- An unlabelled fiction. -/
def EpistemicClaim.fiction : EpistemicClaim where
  claimId := "claim-1"
  text := "A fictional concept"
  claimClass := .creative
  verificationState := .proposed

/-- A claim approved on one independent source. -/
def EpistemicClaim.approved : EpistemicClaim where
  claimId := "claim-1"
  text := "A bounded factual claim"
  claimClass := .highImpact
  verificationState := .approvedForUse
  evidence := [⟨"ev-1", .utf8 (String.ofList (List.replicate 64 'a')), "https://example.invalid/source", "validator",
    true, some true⟩]
  reviewOwner := some "reviewer"
  approvalAuthority := some "authority"
  residualOwner := some "owner"

theorem fiction_valid : EpistemicClaim.fiction.validate id = .ok () := by decide +kernel

theorem approved_valid : EpistemicClaim.approved.validate id = .ok () := by decide +kernel

/-- The approved claim is used for a high-impact action. -/
theorem high_impact_use_approved : UseGuarded id .approved .highImpactAction :=
  (high_impact_use_iff .approved .highImpactAction approved_valid).mpr
    fun h => absurd h.1.1 (by decide)

/-- The fiction is allowed in a high-impact action. -/
theorem fiction_acts : ¬ ∀ (claim : EpistemicClaim) (context : UseContext), claim.validate id = .ok () →
    UseGuarded id claim context := fun h => by
  have hguarded := h .fiction .highImpactAction fiction_valid
  have happroved := hguarded _ ((evaluateClaimUse_valid fiction_valid).mpr rfl) rfl (.inl rfl)
  exact absurd happroved.1 (by decide)

end Rpr
