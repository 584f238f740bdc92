import PathwayRuntime.Log.Authority

/-!
# Definitions that inspection holds

* `Unfit`: inspection judges the definition invalid, or its route in need of reevaluation.
* `Method.Approves`: the call asks for the approval of a pathway as its approval authority.
* **`unfit_held`**: a pathway with an unfit definition that nobody approves is never approved, never
  running, and never executed.
* `unfit_executed`: its approval authority releases a pathway with an ineligible receiver.
-/

set_option autoImplicit false

namespace Rpr

open Resume

/-- Inspection judges the definition invalid, or its route in need of reevaluation. -/
def PathwayDefinition.Unfit (d : PathwayDefinition) : Prop :=
  (inspectPathway d).valid = false ∨
    (inspectPathway d).degradationMode = "route_reevaluation_required"

/-- The call asks for the approval of the pathway as its approval authority. -/
def Method.Approves (m : Method) (d : PathwayDefinition) : Prop :=
  ∃ actor, m.Requests d.pathwayId .approved actor ∧ d.approvalAuthority = some (strip actor)

/-- An unfit definition is held. -/
theorem PathwayDefinition.Unfit.decision {d : PathwayDefinition} (h : d.Unfit) :
    (inspectPathway d).decision = .hold := by
  rcases h with h | h
  · exact inspectPathway_decision_of_invalid h
  · simp only [inspectPathway, inspectionOutcome] at h ⊢
    split_ifs at h ⊢ <;> first | rfl | exact absurd h (by simp)

theorem combine_hold (decision : RuntimeDecision) : combine .hold decision ≠ .allow := by
  cases decision <;> decide

/-- Only a requested transition leads to `APPROVED`. -/
theorem Commits.approver {py : Platform} {c : Call} {own : Own} {p : String} {cur : PathwayState}
    {e : EvidenceEvent} (h : Commits py c own p cur .approved e) :
    c.method.Requests p .approved e.actor := by
  generalize htarget : PathwayState.approved = target at h
  cases h with
  | requested hc hrun hcheck hseal =>
    rw [hseal.fields.2.2.1]
    exact hc
  | moved hc hmove =>
    subst htarget
    rcases hmove.target_cases with h | h | h <;> cases h
  | late hc hres hr =>
    subst htarget
    rcases ExecutionResult.finalTarget_cases hr with ⟨h, -⟩ | ⟨h, -⟩ <;> cases h
  | reconciled =>
    unfold ExecutionResult.reconciledTarget at htarget
    split_ifs at htarget
  | started | repaired | resumed | closed => cases htarget

section Held

variable {py : Platform} {order : Option RowOrder} {tr : List Record} {w : World}

/-- The definition a pathway was created with is the one that is stored. -/
theorem created_stored (h : Reach py order tr w) {e : Record} (he : e ∈ tr) {d : PathwayDefinition}
    {fp key : String} {st st' : PathwayState}
    (hs : e.step = .createOrReplayPathway d fp st key (.ok (false, st'))) :
    w.definitionJson d.pathwayId = some d.toDict := by
  induction h using Reach.induct with
  | start => cases he
  | step t c s tr w h ih hj ha h' =>
    rcases List.mem_cons.mp he with rfl | he
    · obtain rfl : s = _ := hs
      show (w.create d.pathwayId _).definitionJson d.pathwayId = _
      rw [World.definitionJson_create, if_pos rfl]
    · exact definition_kept hj ha (ih he)

/-- A pathway with an unfit definition only passes the gate when its approval authority asks. -/
theorem Gated.approves {d : PathwayDefinition} (h : Reach py order tr w) (hunfit : d.Unfit)
    (hd : w.definitionJson d.pathwayId = some d.toDict) (hgate : Gated py tr w d.pathwayId) :
    ∃ e ∈ tr, e.caller.method.Approves d := by
  rcases hgate with ⟨x, hx, y, hy, d', fp, key, st, outcome, decision, codes, raw, hstep, hp, hty, hys,
    hread, hallow, hnone⟩ | ⟨d', a, event, hd', haa, hne, he, hty, hactor, x, hx, cur, hstep, -⟩
  · have hstored := created_stored h hx hstep
    rw [hp, hd] at hstored
    obtain rfl := PathwayDefinition.toDict_injective py (Option.some.inj hstored)
    rw [hunfit.decision] at hallow
    exact absurd hallow (combine_hold decision)
  · obtain rfl := PathwayDefinition.toDict_injective py (Option.some.inj (hd.symm.trans hd'))
    obtain ⟨newer, older, rfl⟩ := List.append_of_mem hx
    have hcommit := h.of_append.2
    rw [hstep] at hcommit
    exact ⟨x, hx, event.actor, Commits.approver hcommit, by rw [haa, hactor]⟩

/-- A pathway with an unfit definition that nobody approves is in no gated state and is not
executed. -/
theorem unfit_of_reach {d : PathwayDefinition} (h : Reach py order tr w) (hunfit : d.Unfit)
    (hd : w.definitionJson d.pathwayId = some d.toDict)
    (hno : ∀ e ∈ tr, ¬ e.caller.method.Approves d) :
    (∀ s ∈ gatedStates, w.state d.pathwayId ≠ some s) ∧ ∀ x, (d.pathwayId, x) ∉ dispatches tr := by
  have hgate : ¬ Gated py tr w d.pathwayId := by
    intro hg
    obtain ⟨e, he, happroves⟩ := hg.approves h hunfit hd
    exact hno e he happroves
  refine ⟨fun s hs hst => hgate ((gated_of_reach h).1 s hs hst), fun x hx => ?_⟩
  obtain ⟨newer, e, older, rfl, hdis⟩ := dispatches_split hx
  obtain ⟨request, r, hstep, -⟩ := Step.dispatch_eq_some hdis
  have hj := h.of_append.2
  rw [hstep] at hj
  obtain ⟨s, hs, hrun⟩ := Invokes.seenRunning hj
  obtain ⟨y, hy, -, rfl⟩ := mem_own.mp hs
  exact hgate ((gated_of_reach h).2 y (by simp [hy]) hrun)

end Held

/-- **Unfit definitions are not executed unless they are approved.** In every interleaving of calls
by any actors, with crashes, in which no call asks for the approval of the pathway as its approval
authority, a pathway with an unfit definition is neither approved nor running and its executor is
never invoked. -/
theorem unfit_held (py : Platform) (order : Option RowOrder) (calls : List (Call × List Oracle))
    (acts : List (Machine.Action Call Oracle)) (d : PathwayDefinition) (hunfit : d.Unfit)
    (hd : (interleaved py order calls acts).world.getDefinition py d.pathwayId = .ok d)
    (hcalls : ∀ call ∈ calls, ¬ call.1.method.Approves d)
    (hacts : ∀ c, .invoke c ∈ acts → ¬ c.method.Approves d) :
    (interleaved py order calls acts).world.state d.pathwayId ≠ some .approved ∧
      (interleaved py order calls acts).world.state d.pathwayId ≠ some .running ∧
      ∀ x, (d.pathwayId, x) ∉ dispatches (interleaved py order calls acts).trace := by
  have hreach := interleaved_reach py order calls acts
  obtain ⟨hstate, hnone⟩ := unfit_of_reach hreach hunfit ((getDefinition_stored hreach).mp hd)
    (interleaved_callers (P := fun c => ¬ c.method.Approves d) hcalls hacts)
  exact ⟨hstate .approved (by decide), hstate .running (by decide), hnone⟩

/-- A pathway whose route goes to an ineligible receiver. -/
def misrouted : PathwayDefinition :=
  { PathwayDefinition.sample (some "approver") with
    responsibilityRoute := some
      { routeClass := .aiResolveWithinDelegation
        sourceHolder := "owner"
        destination := "team"
        receiverEligibility := .ineligible
        authorityClass := "delegated"
        delegationScope := "one write"
        unresolvedPayload := []
        allowedNextActions := ["review"]
        closureCondition := "reviewed"
        reevaluationCondition := "team changes"
        residualOwner := "residual"
        expiresAt := none } }

def misroutedCalls : List (Call × List Oracle) := [(Method.register misrouted "reg").answered {}]

/-- Two that are not its approval authority ask for its approval, in turn. -/
def misroutedRace : List (Machine.Action Call Oracle) :=
  .invoke ⟨.default, .transition "p" .approved "owner" "go"⟩ ::
    .invoke ⟨.default, .transition "p" .approved "executor" "go"⟩ :: inTurn 1 2 6

theorem unfit_held_misrouted :
    (interleaved .sample none misroutedCalls misroutedRace).world.state "p" ≠ some .approved ∧
      (interleaved .sample none misroutedCalls misroutedRace).world.state "p" ≠ some .running ∧
      ∀ x, ("p", x) ∉ dispatches (interleaved .sample none misroutedCalls misroutedRace).trace := by
  refine unfit_held .sample none misroutedCalls misroutedRace misrouted (.inl (by decide +kernel)) ?_ ?_ ?_
  · refine getDefinition_interleaved ?_ ?_ (by decide +kernel)
    · simp +contextual [misroutedCalls, Method.answered, eq_comm]
    · simp [misroutedRace, inTurn]
  · simp [misroutedCalls, Method.answered, Method.Approves, Method.Requests]
  · intro c hc
    simp only [misroutedRace, inTurn, List.mem_cons, Machine.Action.invoke.injEq, reduceCtorEq, List.not_mem_nil,
      or_false] at hc
    rcases hc with rfl | rfl
    all_goals
      rintro ⟨actor, ⟨-, -, rfl⟩, hauthority⟩
      exact absurd hauthority (by decide)

/-- Its approval authority approves the pathway, and an attempt is executed. -/
def releasedCalls : List (Call × List Oracle) :=
  [(Method.register misrouted "reg").answered {},
    (Method.transition "p" .approved "approver" "go").answered {},
    executing requestA ⟨.failed, [], none, none⟩]

/-- **An approval releases an invalid definition**: its approval authority approves the pathway with
the ineligible receiver, and it is executed. -/
theorem unfit_executed : ¬ ∀ (py : Platform) (order : Option RowOrder)
    (calls : List (Call × List Oracle)) (acts : List (Machine.Action Call Oracle))
    (d : PathwayDefinition), d.Unfit →
    (interleaved py order calls acts).world.getDefinition py d.pathwayId = .ok d →
    (interleaved py order calls acts).world.state d.pathwayId ≠ some .approved ∧
      (interleaved py order calls acts).world.state d.pathwayId ≠ some .running ∧
      ∀ x, (d.pathwayId, x) ∉ dispatches (interleaved py order calls acts).trace := by
  intro h
  have hrun : ("p", "a") ∈ dispatches (interleaved .sample none releasedCalls []).trace ∧
      ((interleaved .sample none releasedCalls []).world.state "p").isSome := by
    decide +kernel
  refine (h .sample none releasedCalls [] misrouted (.inl (by decide +kernel)) ?_).2.2 "a" hrun.1
  refine getDefinition_interleaved ?_ (by simp) hrun.2
  simp +contextual [releasedCalls, executing, Method.answered, eq_comm]

end Rpr
