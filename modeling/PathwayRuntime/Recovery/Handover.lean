import PathwayRuntime.Model.Diagnostics
import PathwayRuntime.Trace.Reach

/-!
# Whom the diagnostics name

* `MayAct d s actor`: in state `s` the authority checks let this actor take an edge, close the pathway or reconcile it.
* `PathwayDefinition.Tidy`: the names of a definition stand without surrounding white space, and none is empty.
* `awaiting_configured`: a pathway that awaits approval has an approval authority.
* **`handover_acts_iff`**: whom the diagnostics name can act, but for the stop authority of a stopped pathway and the
  residual owner of a partially completed one, who can act only if they hold another role.
-/

set_option autoImplicit false

namespace Rpr

open Resume

/-- What the authority checks let an actor do in this state: take an edge, close with residuals, or reconcile. The calls
may refuse an edge on other grounds. -/
inductive MayAct (d : PathwayDefinition) (s : PathwayState) (actor : String) : Prop
  | moves (target : PathwayState) (hedge : target ∈ allowedTransitions s)
      (hauth : authorizeTransition d s target actor = .ok ())
  | closes (hedge : .aborted ∈ allowedTransitions s) (hblank : isBlank actor = false)
      (hactor : actor = d.residualOwner)
  | reconciles (hunknown : s = .writeStatusUnknown) (hauth : authorizeReconciliationAccess d actor = .ok ())

/-- A name without surrounding white space that is not empty. -/
def IsTidy (name : String) : Prop := strip name = name ∧ name ≠ ""

/-- All names of a definition are tidy. -/
def PathwayDefinition.Tidy (d : PathwayDefinition) : Prop := ∀ name ∈ d.holders, IsTidy name

section Authority

variable {d : PathwayDefinition} {cur target : PathwayState} {actor : String}

theorem IsTidy.not_blank (h : IsTidy actor) : isBlank actor = false := by
  rw [isBlank, h.1]
  exact beq_eq_false_iff_ne.mpr h.2

/-- The actor a rule names may take the edge. -/
theorem IsTidy.authorized (rule : TransitionAuthority) (h : IsTidy rule.expectedActor)
    (hrule : requiredAuthority d target = some rule) (hrun : target ≠ .running) (hab : target ≠ .aborted)
    (hunknown : ¬ (cur = .writeStatusUnknown ∧ target = .completed)) :
    authorizeTransition d cur target rule.expectedActor = .ok () :=
  (authorizeTransition_rule hrule hrun hab hunknown).mpr ⟨h.1.symm ▸ h.2, h.2, h.1⟩

/-- Anybody may deny. -/
theorem authorizeTransition_denied (h : isBlank actor = false) : authorizeTransition d cur .denied actor = .ok () := by
  have hactor : requireActor actor = .ok (strip actor) := requireActor_ok.mpr ⟨rfl, beq_eq_false_iff_ne.mp h⟩
  rw [authorizeTransition, hactor]
  simp [bind, Except.bind, requiredAuthority]

/-- The execution actor and, where a pathway is resumed, the resume authority may enter `RUNNING`. -/
theorem IsTidy.runs (h : IsTidy actor)
    (hactor : actor = d.executionActor ∨ cur = .readyToResume ∧ actor = d.resumeAuthority) :
    authorizeTransition d cur .running actor = .ok () := by
  have hok : requireActor actor = .ok actor := requireActor_ok.mpr ⟨h.1.symm, h.1.symm ▸ h.2⟩
  rw [authorizeTransition, hok]
  rcases hactor with rfl | ⟨rfl, rfl⟩
  · simp only [bind, Except.bind]
    split_ifs <;> simp_all
  · simp [bind, Except.bind]

/-- The evidence owner may reconcile. -/
theorem IsTidy.reconciles (h : IsTidy d.evidenceOwner) :
    authorizeReconciliationAccess d d.evidenceOwner = .ok () := by
  have hok : requireActor d.evidenceOwner = .ok d.evidenceOwner := requireActor_ok.mpr ⟨h.1.symm, h.1.symm ▸ h.2⟩
  rw [authorizeReconciliationAccess, hok]
  simp [bind, Except.bind]

/-- Where the only edges lead to a repair and to the residual closure, those who may act are the repair owner and the
residual owner. -/
theorem MayAct.repairs (h : MayAct d cur actor) (htidy : IsTidy actor)
    (hedges : ∀ target ∈ allowedTransitions cur, target = .repairRequired ∨ target = .aborted)
    (hknown : cur ≠ .writeStatusUnknown) :
    actor = d.repairOwner ∨ .aborted ∈ allowedTransitions cur ∧ actor = d.residualOwner := by
  cases h with
  | moves target hedge hauth =>
    rcases hedges _ hedge with rfl | rfl
    · have := (authorizeTransition_ok hauth).2.2.2.2 (by decide) _ rfl
      exact .inl (htidy.1.symm.trans this.2)
    · exact absurd rfl (authorizeTransition_ok hauth).2.1
  | closes hedge hblank hactor => exact .inr ⟨hedge, hactor⟩
  | reconciles hunknown => exact absurd hunknown hknown

end Authority

section Named

variable {d : PathwayDefinition}

/-- A role of a tidy definition. -/
theorem PathwayDefinition.Tidy.role (h : d.Tidy) : IsTidy d.decisionOwner ∧ IsTidy d.executionActor ∧
    IsTidy d.stopAuthority ∧ IsTidy d.evidenceOwner ∧ IsTidy d.repairOwner ∧ IsTidy d.resumeAuthority ∧
    IsTidy d.residualOwner ∧ ∀ a, d.approvalAuthority = some a → IsTidy a := by
  have hmem : ∀ name, name ∈ d.holders → IsTidy name := h
  refine ⟨hmem _ ?_, hmem _ ?_, hmem _ ?_, hmem _ ?_, hmem _ ?_, hmem _ ?_, hmem _ ?_, fun a ha => hmem _ ?_⟩ <;>
    simp [PathwayDefinition.holders, *]

/-- What the two hand-overs without a right of their own need. -/
def HasOtherRole (d : PathwayDefinition) (s : PathwayState) : Prop :=
  (s = .stopped → d.stopAuthority = d.repairOwner ∨ d.stopAuthority = d.residualOwner) ∧
    (s = .partiallyCompleted → d.residualOwner = d.repairOwner)

/-- A transition with a rule, by the actor the rule names. -/
theorem MayAct.named {s : PathwayState} (target : PathwayState) {actor : String} (h : IsTidy actor)
    (hedge : target ∈ allowedTransitions s) (hrule : ∃ role, requiredAuthority d target = some ⟨role, actor⟩)
    (hrun : target ≠ .running) (hab : target ≠ .aborted) (hknown : s ≠ .writeStatusUnknown) : MayAct d s actor := by
  obtain ⟨role, hrule⟩ := hrule
  exact .moves _ hedge (IsTidy.authorized ⟨role, actor⟩ h hrule hrun hab fun h => hknown h.1)

/-- The stop authority of a stopped pathway. -/
theorem mayAct_stopped_iff (h : d.Tidy) : MayAct d .stopped d.stopAuthority ↔
    d.stopAuthority = d.repairOwner ∨ d.stopAuthority = d.residualOwner := by
  have hstop : IsTidy d.stopAuthority := h.role.2.2.1
  constructor
  · intro hact
    exact (hact.repairs hstop (by decide) (by decide)).imp_right And.right
  · rintro (hrepair | hresidual)
    · exact .named .repairRequired hstop (by decide) ⟨_, by rw [hrepair]; rfl⟩ (by decide) (by decide)
        (by decide)
    · exact .closes (by decide) hstop.not_blank hresidual

/-- The residual owner of a partially completed pathway. -/
theorem mayAct_partiallyCompleted_iff (h : d.Tidy) :
    MayAct d .partiallyCompleted d.residualOwner ↔ d.residualOwner = d.repairOwner := by
  have hresidual : IsTidy d.residualOwner := h.role.2.2.2.2.2.2.1
  constructor
  · intro hact
    rcases hact.repairs hresidual (by decide) (by decide) with hrepair | ⟨hedge, -⟩
    · exact hrepair
    · exact absurd hedge (by decide)
  · intro hrepair
    exact .named .repairRequired hresidual (by decide) ⟨_, by rw [hrepair]; rfl⟩ (by decide) (by decide)
      (by decide)

/-- Whom the next step names, where a pathway that awaits approval has an approval authority. -/
theorem nextStep_acts_iff (h : d.Tidy) {s : PathwayState} (hs : s ∉ terminalStates)
    (hconfigured : s = .awaitingApproval → d.approvalAuthority.isSome) :
    (∃ actor, (nextStep d s).1 = some actor ∧ MayAct d s actor) ↔ HasOtherRole d s := by
  obtain ⟨hdecision, hexecution, hstop, hevidence, hrepair, hresume, hresidual, happroval⟩ := h.role
  have hother : s ≠ .stopped → s ≠ .partiallyCompleted → HasOtherRole d s := fun h₁ h₂ =>
    ⟨fun h => absurd h h₁, fun h => absurd h h₂⟩
  have hacts : ∀ actor, (nextStep d s).1 = some actor → MayAct d s actor → s ≠ .stopped →
      s ≠ .partiallyCompleted → ((∃ actor, (nextStep d s).1 = some actor ∧ MayAct d s actor) ↔ HasOtherRole d s) :=
    fun actor hname hact h₁ h₂ => ⟨fun _ => hother h₁ h₂, fun _ => ⟨actor, hname, hact⟩⟩
  cases s
  case proposed =>
    exact hacts _ rfl (.moves .denied (by decide) (authorizeTransition_denied hdecision.not_blank)) (by decide)
      (by decide)
  case awaitingApproval =>
    obtain ⟨a, ha⟩ := Option.isSome_iff_exists.mp (hconfigured rfl)
    have hrule : ∃ role, requiredAuthority d .approved = some ⟨role, a⟩ := ⟨"approval_authority", by
      simp [requiredAuthority, ha]⟩
    exact hacts _ ha (.named .approved (happroval a ha) (by decide) hrule (by decide) (by decide) (by decide))
      (by decide) (by decide)
  case approved =>
    exact hacts _ rfl (.moves .running (by decide) (hexecution.runs (.inl rfl))) (by decide) (by decide)
  case running =>
    exact hacts _ rfl (.named .completed hexecution (by decide) ⟨_, rfl⟩ (by decide) (by decide) (by decide))
      (by decide) (by decide)
  case held =>
    exact hacts _ rfl (.named .humanGate hstop (by decide) ⟨_, rfl⟩ (by decide) (by decide) (by decide))
      (by decide) (by decide)
  case humanGate =>
    cases ha : d.approvalAuthority with
    | none =>
      exact hacts d.decisionOwner (by simp [nextStep, ha])
        (.moves .denied (by decide) (authorizeTransition_denied hdecision.not_blank)) (by decide) (by decide)
    | some a =>
      exact hacts a (by simp [nextStep, ha, (happroval a ha).2])
        (.moves .denied (by decide) (authorizeTransition_denied (happroval a ha).not_blank)) (by decide)
        (by decide)
  case stopped =>
    constructor
    · rintro ⟨actor, hname, hact⟩
      obtain rfl := Option.some.inj hname
      exact ⟨fun _ => (mayAct_stopped_iff h).mp hact, fun h => absurd h (by decide)⟩
    · exact fun hrole => ⟨_, rfl, (mayAct_stopped_iff h).mpr (hrole.1 rfl)⟩
  case partiallyCompleted =>
    constructor
    · rintro ⟨actor, hname, hact⟩
      obtain rfl := Option.some.inj hname
      exact ⟨fun h => absurd h (by decide), fun _ => (mayAct_partiallyCompleted_iff h).mp hact⟩
    · exact fun hrole => ⟨_, rfl, (mayAct_partiallyCompleted_iff h).mpr (hrole.2 rfl)⟩
  case writeStatusUnknown => exact hacts _ rfl (.reconciles rfl hevidence.reconciles) (by decide) (by decide)
  case repairRequired =>
    exact hacts _ rfl (.named .readyToResume hrepair (by decide) ⟨_, rfl⟩ (by decide) (by decide) (by decide))
      (by decide) (by decide)
  case readyToResume =>
    exact hacts _ rfl (.moves .running (by decide) (hresume.runs (.inr ⟨rfl, rfl⟩))) (by decide) (by decide)
  all_goals exact absurd (by decide) hs

end Named

/-! ## In every history -/

section Reach

variable {py : Platform} {order : Option RowOrder} {tr : List Record} {w : World} {p : String}

/-- No pathway is ever stored as `PROPOSED`. -/
theorem not_proposed (h : Reach py order tr w) : w.state p ≠ some .proposed := by
  induction h using Reach.induct with
  | start => exact fun h => by cases h
  | step t c s tr w h ih hj ha h' =>
    intro hs
    cases pathway_cases hj ha p with
    | @created d fp key state state' hd hreg hnew hstate hdef =>
      obtain ⟨_, _, decision, _, _, -, -, -, hinit⟩ := hreg
      obtain rfl := Option.some.inj (hstate.symm.trans hs)
      revert hinit
      cases combine (inspectPathway d).decision decision <;> cases d.approvalAuthority.isSome <;> decide
    | @committed cur target e hcommit hcur hstate hlog =>
      obtain rfl := Option.some.inj (hstate.symm.trans hs)
      have hedge := hcommit.edge.1
      revert hedge
      cases cur <;> decide
    | appended => exact ih hs
    | untouched hstate => exact ih (hstate.symm.trans hs)

/-- A pathway that awaits approval has an approval authority. -/
theorem awaiting_configured (h : Reach py order tr w) (hs : w.state p = some .awaitingApproval)
    {d : PathwayDefinition} (hd : w.definitionJson p = some d.toDict) : d.approvalAuthority.isSome := by
  induction h using Reach.induct with
  | start => cases hs
  | step t c s tr w h ih hj ha h' =>
    cases pathway_cases hj ha p with
    | @created d' fp key state state' hp hreg hnew hstate hdef =>
      obtain rfl := PathwayDefinition.toDict_injective py (Option.some.inj (hdef.symm.trans hd))
      obtain ⟨_, _, decision, _, _, -, -, -, hinit⟩ := hreg
      obtain rfl := Option.some.inj (hstate.symm.trans hs)
      revert hinit
      cases combine (inspectPathway d').decision decision <;> cases d'.approvalAuthority.isSome <;> decide
    | @committed cur target e hcommit hcur hstate hlog =>
      obtain rfl := Option.some.inj (hstate.symm.trans hs)
      have hproposed : cur = .proposed := by
        have hedge := hcommit.edge.1
        revert hedge
        cases cur <;> decide
      exact absurd (hproposed ▸ hcur) (not_proposed h)
    | appended => exact ih hs hd
    | untouched hstate hdef => exact ih (hstate.symm.trans hs) (hdef.symm.trans hd)

end Reach

/-- **The diagnostics hand a pathway over to somebody the authority checks let act on it**, in every interleaving of
calls, with crashes, for every open pathway whose names are tidy, exactly when the stop authority of a stopped one is
its repair owner or its residual owner as well, and the residual owner of a partially completed one its repair
owner. -/
theorem handover_acts_iff (py : Platform) (order : Option RowOrder) (calls : List (Call × List Oracle))
    (acts : List (Machine.Action Call Oracle)) {p : String} {d : PathwayDefinition} {s : PathwayState}
    (hd : (interleaved py order calls acts).world.getDefinition py p = .ok d) (htidy : d.Tidy)
    (hs : (interleaved py order calls acts).world.state p = some s) (hopen : s ∉ terminalStates) :
    (∃ actor, (nextStep d s).1 = some actor ∧ MayAct d s actor) ↔ HasOtherRole d s := by
  have hreach := interleaved_reach py order calls acts
  refine nextStep_acts_iff htidy hopen fun hawaiting => ?_
  exact awaiting_configured hreach (hawaiting ▸ hs) ((getDefinition_stored hreach).mp hd)

/-- The pathway of an unknown write. -/
theorem handover_acts_unknown : (∃ actor, (nextStep (.sample none) .writeStatusUnknown).1 = some actor ∧
    MayAct (.sample none) .writeStatusUnknown actor) ↔ HasOtherRole (.sample none) .writeStatusUnknown := by
  have hstate : (interleaved .sample none unknownCalls []).world.state "p" = some .writeStatusUnknown := by
    decide +kernel
  have hd : (sequential .sample none unknownCalls).world.getDefinition .sample "p" = .ok (.sample none) := by
    refine getDefinition_submitted (d := .sample none) ?_ (Option.isSome_iff_exists.mpr ⟨_, hstate⟩)
    simp +contextual [unknownCalls, approvedCalls, Method.answered, eq_comm]
  have htidy : (PathwayDefinition.sample none).Tidy := by
    unfold PathwayDefinition.Tidy IsTidy
    decide
  exact handover_acts_iff .sample none unknownCalls [] hd htidy hstate (by decide)

end Rpr
