import PathwayRuntime.Model.Diagnostics
import PathwayRuntime.Trace.Solo

/-!
# The attempt of a running pathway

* `lastStarted`: the attempt named by the newest call that moved a pathway to `RUNNING`.
* `running_bound`: a running pathway is bound to that attempt by its log.
* **`running_agreed`**: the runtime and the diagnostics report it.
-/

set_option autoImplicit false

namespace Rpr

open Resume

/-- The attempt a method starts its pathway for. -/
def Method.starts : Method → Option String
  | .execute _ request _ => some request.attemptId
  | .resume _ _ _ nextAttemptId _ => some nextAttemptId
  | _ => none

/-- The attempt named by the call whose transaction was the last to move the pathway to `RUNNING`. -/
def lastStarted (p : String) (tr : List Record) : Option String :=
  (tr.find? fun e => e.step.starts p).bind fun e => e.caller.method.starts

theorem lastStarted_cons (p : String) (e : Record) (tr : List Record) : lastStarted p (e :: tr) =
    if e.step.starts p = true then e.caller.method.starts else lastStarted p tr := by
  rw [lastStarted, List.find?_cons]
  split
  · rename_i h
    rw [if_pos h]
    rfl
  · rename_i h
    rw [if_neg (by simp [h])]
    rfl

theorem initialState_ne_running (decision : RuntimeDecision) (approvalConfigured : Bool) :
    initialState decision approvalConfigured ≠ .running := by
  cases decision <;> cases approvalConfigured <;> decide

section Invariant

variable {py : Platform} {order : Option RowOrder} {c : Call} {own : Own} {s : Step} {tr : List Record}
  {w : World} {p : String}

/-- A commit into `RUNNING` names the attempt of its call. -/
theorem Commits.starts {cur : PathwayState} {e : EvidenceEvent} (h : Commits py c own p cur .running e)
    (hk : c.policy.KeepsBindings py) : ∃ x, c.method.starts = some x ∧ e.binding = some x := by
  generalize htarget : PathwayState.running = target at h
  cases h with
  | requested hc hrun => exact absurd htarget.symm hrun
  | moved hc hmove => rcases hmove.target_cases with rfl | rfl | rfl <;> cases htarget
  | @started cur actor request base event hc h hstart =>
    obtain ⟨d, mid, hcheck, hseal⟩ := hstart
    exact ⟨request.attemptId, by rw [hc]; rfl, hseal.started_binding hk.starts⟩
  | late hc h hr => rcases ExecutionResult.finalTarget_cases hr with ⟨rfl, -⟩ | ⟨rfl, -⟩ <;> cases htarget
  | reconciled =>
    unfold ExecutionResult.reconciledTarget at htarget
    split_ifs at htarget
  | repaired => cases htarget
  | @resumed actor prior next _ _ _ _ _ _ _ _ hc hblank hne hrec hrepair hcheck hseal =>
    exact ⟨next, by rw [hc]; rfl, hseal.resumed_binding hk hblank⟩
  | closed => cases htarget

/-- A pathway that is running after a step that does not start it was running before. -/
theorem running_before (hj : Justified py c own s) (ha : s.Answers py order w) (hs : s.starts p = false)
    (hrun : (s.effect w).state p = some .running) : w.state p = some .running := by
  cases pathway_cases hj ha p with
  | created hd hreg hnew hstate =>
    obtain ⟨_, _, _, _, _, _, _, _, hinit⟩ := hreg
    exact absurd (hinit.symm.trans (Option.some.inj (hstate.symm.trans hrun))) (initialState_ne_running _ _)
  | committed hcommit hcur hstate =>
    obtain rfl := Option.some.inj (hstate.symm.trans hrun)
    simp [Step.starts] at hs
  | appended => exact hrun
  | untouched hstate => exact hstate.symm.trans hrun

/-- **A running pathway is bound to the attempt it was last started for.** -/
theorem running_bound (h : Reach py order tr w) (hk : ∀ e ∈ tr, e.caller.policy.KeepsBindings py)
    (hrun : w.state p = some .running) :
    ∃ x, lastStarted p tr = some x ∧ activeAttempt (w.log p) = .ok x := by
  induction h using Reach.induct with
  | start => cases hrun
  | step t c s tr w h ih hj ha h' =>
    have hkeeps := hk _ List.mem_cons_self
    by_cases hs : s.starts p = true
    · obtain ⟨cur, e, rfl⟩ := Step.starts_eq_true hs
      have hcommit : Commits py c (own t tr) p cur .running e := hj
      obtain ⟨x, hmethod, hbinding⟩ := hcommit.starts hkeeps
      refine ⟨x, ?_, ?_⟩
      · rw [lastStarted_cons, if_pos hs]
        exact hmethod
      · show activeAttempt ((w.commit p .running e).log p) = _
        rw [World.log_commit, if_pos hcommit.pathwayId]
        refine activeAttempt_enter ?_ hbinding
        rw [hcommit.entersRunning hkeeps]
        rfl
    · have hs' : s.starts p = false := by simpa using hs
      obtain ⟨x, hlast, hbound⟩ := ih (fun e he => hk e (List.mem_cons_of_mem _ he))
        (running_before hj ha hs' hrun)
      refine ⟨x, ?_, ?_⟩
      · rwa [lastStarted_cons, if_neg hs]
      · rw [activeAttempt_kept hj ha hkeeps fun cur e he => hs (by rw [he]; simp [Step.starts]), hbound]

end Invariant

/-! ## The two reports -/

section Reports

variable {py : Platform} {order : Option RowOrder} {os : List Oracle} {w : World} {p x : String}

theorem run_activeRunningAttemptId (h : activeAttempt (w.log p) = .ok x) (hos : 1 ≤ os.length) :
    (runAlone py order (activeRunningAttemptId p) os w).1 = .returned x := by
  obtain ⟨o, os, rfl⟩ := List.exists_cons_of_length_pos hos
  show ((database py order).run 0 () (Prog.ofExcept (activeAttempt (w.log p).reverse.reverse)) os _).1 = _
  rw [List.reverse_reverse, h]
  cases os <;> rfl

/-- A running pathway whose definition can be read is diagnosed. -/
theorem run_diagnosePathway {d : PathwayDefinition} (hs : w.state p = some .running)
    (hd : w.getDefinition py p = .ok d) (hos : 4 ≤ os.length) : ∃ diagnostic,
      (runAlone py order (diagnosePathway py p) os w).1 = .returned diagnostic ∧
        diagnostic.activeAttemptId = scanAttempt (w.log p) := by
  obtain ⟨o₁, os, rfl⟩ := List.exists_cons_of_length_pos (Nat.lt_of_lt_of_le (by decide) hos)
  obtain ⟨o₂, os, rfl⟩ := List.exists_cons_of_length_pos (l := os) (by simp at hos; omega)
  obtain ⟨o₃, os, rfl⟩ := List.exists_cons_of_length_pos (l := os) (by simp at hos; omega)
  obtain ⟨o₄, os, rfl⟩ := List.exists_cons_of_length_pos (l := os) (by simp at hos; omega)
  have hget : w.getState p = .ok .running := World.getState_ok.mpr hs
  have hactive : activeAttemptId (w.log p).reverse .running = scanAttempt (w.log p) := by
    rw [activeAttemptId, if_neg (by decide), List.reverse_reverse]
  refine ⟨⟨p, .running, some d.executionActor, "monitor_active_attempt",
    activeAttemptId (w.log p).reverse .running, (w.log p).reverse.getLast?.map EvidenceEvent.eventType,
    (verifyChain py (w.log p).reverse).1, (w.log p).reverse.length⟩, ?_, hactive⟩
  show ((database py order).run 0 () ((Prog.ofExcept (w.getState p)).bind _) _ _).1 = _
  rw [hget]
  show ((database py order).run 0 () ((Prog.ofExcept (w.getDefinition py p)).bind _) _ _).1 = _
  rw [hd]
  cases os <;> rfl

end Reports

/-- **A running pathway has a durable, agreed binding**: after every interleaving of calls with
crashes, both readers report the attempt the pathway was last started for. -/
theorem running_agreed (py : Platform) (order : Option RowOrder) (calls : List (Call × List Oracle))
    (acts : List (Machine.Action Call Oracle)) (p : String)
    (hcalls : ∀ call ∈ calls, call.1.policy = .default) (hacts : ∀ c, .invoke c ∈ acts → c.policy = .default)
    (hrun : (interleaved py order calls acts).world.state p = some .running) :
    ∃ x, lastStarted p (interleaved py order calls acts).trace = some x ∧
      (∀ os, 1 ≤ os.length → (runAlone py order (activeRunningAttemptId p) os
        (interleaved py order calls acts).world).1 = .returned x) ∧
      ∀ os, 4 ≤ os.length → ∃ diagnostic, (runAlone py order (diagnosePathway py p) os
        (interleaved py order calls acts).world).1 = .returned diagnostic ∧
          diagnostic.activeAttemptId = some x := by
  have hreach := interleaved_reach py order calls acts
  have hkeeps : ∀ e ∈ (interleaved py order calls acts).trace, e.caller.policy.KeepsBindings py :=
    interleaved_callers (P := fun c => c.policy.KeepsBindings py)
      (fun call hc => hcalls call hc ▸ RedactionPolicy.default_keepsBindings py)
      fun c hc => hacts c hc ▸ RedactionPolicy.default_keepsBindings py
  obtain ⟨x, hlast, hbound⟩ := running_bound hreach hkeeps hrun
  refine ⟨x, hlast, fun os => run_activeRunningAttemptId hbound, fun os hos => ?_⟩
  obtain ⟨j, hj⟩ := Option.isSome_iff_exists.mp (World.state_isSome_iff.mp (by rw [hrun]; rfl :
    ((interleaved py order calls acts).world.state p).isSome))
  obtain ⟨d, -, rfl⟩ := definition_stored hreach hj
  refine (run_diagnosePathway hrun ((getDefinition_stored hreach).mpr hj) hos).imp fun diagnostic h => ⟨h.1, ?_⟩
  rw [h.2, scanAttempt_eq, hbound]
  rfl

/-- An execution that is lost after it has started its pathway. -/
def lostExecution : List (Machine.Action Call Oracle) :=
  .invoke ⟨.default, .execute "p" requestA "executor"⟩ :: List.replicate 9 (.step 1 {}) ++ [.crash 1]

theorem running_agreed_lost :
    ∃ x, lastStarted "p" (interleaved .sample none approvedCalls lostExecution).trace = some x ∧
      (∀ os, 1 ≤ os.length → (runAlone .sample none (activeRunningAttemptId "p") os
        (interleaved .sample none approvedCalls lostExecution).world).1 = .returned x) ∧
      ∀ os, 4 ≤ os.length → ∃ diagnostic, (runAlone .sample none (diagnosePathway .sample "p") os
        (interleaved .sample none approvedCalls lostExecution).world).1 = .returned diagnostic ∧
          diagnostic.activeAttemptId = some x :=
  running_agreed .sample none approvedCalls lostExecution "p" (by simp [approvedCalls, Method.answered])
    (by simp [lostExecution]) (by decide +kernel)

end Rpr
