import Mathlib.Tactic.SplitIfs
import PathwayRuntime.Model.Definition

/-!
# Declared authority

* `authorizeTransition`, `authorizeExecutionAccess`, `authorizeReconciliationAccess`.
* `PathwayDefinition.holders`: the actors a definition names.
* `authorizeTransition_ok`: what an accepted transition says about its actor.
-/

set_option autoImplicit false

namespace Rpr

structure TransitionAuthority where
  requiredRole : String
  expectedActor : String
  deriving DecidableEq

def requireActor (actor : String) : Except PyError String :=
  let actor := strip actor
  if actor = "" then .error (.authorityError "actor is required") else .ok actor

def authorizeExecutionAccess (definition : PathwayDefinition) (actor : String) :
    Except PyError Unit := do
  let actor ← requireActor actor
  if actor ≠ definition.executionActor then
    .error (.authorityError "actor lacks execution authority")
  else .ok ()

def authorizeReconciliationAccess (definition : PathwayDefinition) (actor : String) :
    Except PyError Unit := do
  let actor ← requireActor actor
  if actor ∉ [definition.repairOwner, definition.evidenceOwner] then
    .error (.authorityError "actor lacks reconciliation authority")
  else .ok ()

def requiredAuthority (definition : PathwayDefinition) :
    PathwayState → Option TransitionAuthority
  | .approved => some ⟨"approval_authority", definition.approvalAuthority.getD ""⟩
  | .stopped | .held | .humanGate => some ⟨"stop_authority", definition.stopAuthority⟩
  | .repairRequired => some ⟨"repair_owner", definition.repairOwner⟩
  | .readyToResume => some ⟨"repair_owner", definition.repairOwner⟩
  | .running => some ⟨"execution_or_resume_authority", ""⟩
  | .completed | .partiallyCompleted | .writeStatusUnknown =>
    some ⟨"execution_actor", definition.executionActor⟩
  | .aborted => some ⟨"residual_owner", definition.residualOwner⟩
  | _ => none

def authorizeTransition (definition : PathwayDefinition) (current target : PathwayState)
    (actor : String) : Except PyError Unit := do
  let actor ← requireActor actor
  if current = .writeStatusUnknown ∧ target = .completed then
    .error (.authorityError "unknown write completion requires reconciliation authority and evidence")
  else if target = .aborted then
    .error (.authorityError "aborted transition requires residual closure evidence")
  else if target = .running then
    let allowed := if current ∈ [.readyToResume, .stopped, .held] then
      [definition.executionActor, definition.resumeAuthority] else [definition.executionActor]
    if actor ∉ allowed then
      .error (.authorityError "actor lacks execution or resume authority")
    else .ok ()
  else match requiredAuthority definition target with
    | none => .ok ()
    | some rule =>
      if rule.expectedActor = "" ∨ actor ≠ rule.expectedActor then
        .error (.authorityError ("actor lacks " ++ rule.requiredRole))
      else .ok ()

/-- The actors a definition names. -/
def PathwayDefinition.holders (d : PathwayDefinition) : List String :=
  [d.decisionOwner, d.executionActor, d.stopAuthority, d.evidenceOwner, d.repairOwner,
    d.resumeAuthority, d.residualOwner] ++ d.approvalAuthority.toList

/-! ## What acceptance says -/

theorem requireActor_ok {actor a : String} :
    requireActor actor = .ok a ↔ a = strip actor ∧ strip actor ≠ "" := by
  unfold requireActor
  dsimp only
  split_ifs with h <;> simp [h, eq_comm]

theorem authorizeExecutionAccess_ok {d : PathwayDefinition} {actor : String}
    (h : authorizeExecutionAccess d actor = .ok ()) :
    strip actor = d.executionActor ∧ strip actor ≠ "" := by
  unfold authorizeExecutionAccess requireActor at h
  dsimp only at h
  split_ifs at h with ha
  · cases h
  · simp only [bind, Except.bind] at h
    split_ifs at h with hx
    exact ⟨not_not.mp hx, ha⟩

theorem authorizeReconciliationAccess_ok {d : PathwayDefinition} {actor : String}
    (h : authorizeReconciliationAccess d actor = .ok ()) :
    (strip actor = d.repairOwner ∨ strip actor = d.evidenceOwner) ∧ strip actor ≠ "" := by
  unfold authorizeReconciliationAccess requireActor at h
  dsimp only at h
  split_ifs at h with ha
  · cases h
  · simp only [bind, Except.bind] at h
    split_ifs at h with hx
    exact ⟨by simpa using hx, ha⟩

/-- **What an accepted transition says.** It is neither a residual closure nor the completion of an
unknown write; the actor of an entry into `RUNNING` executes or resumes; every other target but
the three without a rule is reached by the actor its rule names. -/
theorem authorizeTransition_ok {d : PathwayDefinition} {cur target : PathwayState} {actor : String}
    (h : authorizeTransition d cur target actor = .ok ()) :
    strip actor ≠ "" ∧ target ≠ .aborted ∧ ¬ (cur = .writeStatusUnknown ∧ target = .completed) ∧
      (target = .running → strip actor = d.executionActor ∨ strip actor = d.resumeAuthority) ∧
      (target ≠ .running → ∀ rule, requiredAuthority d target = some rule →
        rule.expectedActor ≠ "" ∧ strip actor = rule.expectedActor) := by
  unfold authorizeTransition at h
  cases hr : requireActor actor with
  | error e => rw [hr] at h; cases h
  | ok a =>
    obtain ⟨rfl, hne⟩ := requireActor_ok.mp hr
    rw [hr] at h
    simp only [bind, Except.bind] at h
    split_ifs at h with hu hab hrun hread hact hact
    · exact ⟨hne, hab, hu, fun _ => by simpa using hact, fun hn => absurd hrun hn⟩
    · exact ⟨hne, hab, hu, fun _ => by simpa using Or.inl (by simpa using hact),
        fun hn => absurd hrun hn⟩
    · refine ⟨hne, hab, hu, fun hr => absurd hr hrun, fun _ rule hrule => ?_⟩
      rw [hrule] at h
      dsimp only at h
      split_ifs at h with hx
      exact ⟨fun he => hx (.inl he), not_not.mp fun he => hx (.inr he)⟩

/-- A target with a rule is reached by the actor the rule names. -/
theorem authorizeTransition_rule {d : PathwayDefinition} {cur target : PathwayState} {actor : String}
    {rule : TransitionAuthority} (hrule : requiredAuthority d target = some rule)
    (hrun : target ≠ .running) (hab : target ≠ .aborted)
    (hunknown : ¬ (cur = .writeStatusUnknown ∧ target = .completed)) :
    authorizeTransition d cur target actor = .ok () ↔
      strip actor ≠ "" ∧ rule.expectedActor ≠ "" ∧ strip actor = rule.expectedActor := by
  unfold authorizeTransition
  cases hr : requireActor actor with
  | error e =>
    have hblank : ¬ strip actor ≠ "" := fun hne => by
      rw [requireActor_ok.mpr ⟨rfl, hne⟩] at hr
      cases hr
    constructor
    · intro h
      cases h
    · intro h
      exact absurd h.1 hblank
  | ok a =>
    obtain ⟨rfl, hne⟩ := requireActor_ok.mp hr
    simp only [bind, Except.bind, if_neg hunknown, if_neg hab, if_neg hrun, hrule]
    split_ifs with h
    · refine ⟨fun herr => ?_, fun hok => ?_⟩
      · cases herr
      · exact absurd h (not_or.mpr ⟨hok.2.1, not_not.mpr hok.2.2⟩)
    · have hrule := not_or.mp h
      exact ⟨fun _ => ⟨hne, hrule.1, not_not.mp hrule.2⟩, fun _ => rfl⟩

/-- An approval is made by the declared approval authority. -/
theorem authorizeTransition_approved {d : PathwayDefinition} {cur : PathwayState} {actor : String}
    (h : authorizeTransition d cur .approved actor = .ok ()) :
    ∃ a, d.approvalAuthority = some a ∧ a ≠ "" ∧ strip actor = a := by
  obtain ⟨-, -, -, -, hrule⟩ := authorizeTransition_ok h
  obtain ⟨hne, heq⟩ := hrule (by decide) _ rfl
  cases ha : d.approvalAuthority with
  | none => simp [ha] at hne
  | some a =>
    simp only [ha, Option.getD_some] at hne heq
    exact ⟨a, rfl, hne, heq⟩

/-- Every accepted transition but a denial or a return to the entry states has a declared actor. -/
theorem authorizeTransition_holder {d : PathwayDefinition} {cur target : PathwayState}
    {actor : String} (h : authorizeTransition d cur target actor = .ok ())
    (hedge : target ∈ allowedTransitions cur) (hden : target ≠ .denied)
    (hawait : target ≠ .awaitingApproval) : strip actor ∈ d.holders := by
  obtain ⟨-, hab, -, hrun, hrule⟩ := authorizeTransition_ok h
  cases target
  case approved =>
    obtain ⟨a, ha, -, heq⟩ := authorizeTransition_approved h
    simp [PathwayDefinition.holders, ha, heq]
  case running => rcases hrun rfl with h | h <;> simp [PathwayDefinition.holders, h]
  case aborted => exact absurd rfl hab
  case denied => exact absurd rfl hden
  case awaitingApproval => exact absurd rfl hawait
  case proposed => cases cur <;> exact absurd hedge (by decide)
  all_goals
    have := (hrule (by decide) _ rfl).2
    simp [PathwayDefinition.holders, this]

end Rpr
