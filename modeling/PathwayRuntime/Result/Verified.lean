import Mathlib.Data.List.Induction
import PathwayRuntime.Model.Agent
import PathwayRuntime.Trace.Methods
import PathwayRuntime.Trace.Stored

/-!
# Reported success

* `Step.verifies`: the executor does not claim a success without a verified readback.
* `VerifiedStored`, `stored_verified`: then no stored success is unverified.
* `agent_shows`: calls of a tool boundary do to the databases what executions do.
* **`success_completed`**: while executors verify, a reported success leaves its pathway `COMPLETED`.
* `success_unverified`: an unverified success is reported, and allowed, on a pathway that is unknown.
-/

set_option autoImplicit false

namespace Rpr

open Resume

/-- The executor does not claim a success without a verified readback. -/
def Step.verifies : Step → Bool
  | .invokeExecutor _ _ outcome => outcome.result.Confirmed
  | _ => true

/-- Every stored success is verified. -/
def VerifiedStored (w : World) : Prop :=
  ∀ x row stored r, w.attempts.lookup x = some row → row.outcome = some stored →
    resultFromAttempt stored.json = .ok r → r.Confirmed

theorem ExecutionResult.Confirmed.target {r : ExecutionResult} (h : r.Confirmed)
    (hs : r.status = .succeeded) : r.pathwayTarget = .completed := by
  rw [pathwayTarget, finalTarget, if_pos ⟨hs, h hs⟩]

section Stored

variable {py : Platform} {order : Option RowOrder} {tr : List Record} {w : World}

/-- What a call stores is confirmed when its executor verifies. -/
theorem Finishes.confirmed {c : Call} {own : Own} {x : String} {res : PersistedResult}
    (h : Finishes py c own x res) (hv : ∀ s ∈ own, s.verifies = true) {r : ExecutionResult}
    (hr : resultFromAttempt res.json = .ok r) : r.Confirmed := by
  have hpersist : ∀ {result : ExecutionResult}, result.Confirmed →
      (persistResult result = .ok res ∨ ∃ reason, res = unknownResult reason) → r.Confirmed := by
    rintro result hconf (hok | ⟨reason, rfl⟩)
    · obtain ⟨-, hread⟩ := persistResult_ok hok
      obtain ⟨hstatus, hverified⟩ := hread r hr
      exact fun hs => hverified.trans (hconf (hstatus.symm.trans hs))
    · intro hs
      rw [PersistedResult.status_eq hr] at hs
      cases hs
  cases h with
  | executed hc hdis hres =>
    obtain ⟨hcleared⟩ := hdis
    exact hpersist (of_decide_eq_true (hv _ List.mem_cons_self)) hres
  | reconciled hc hobs hs hres => exact hpersist (ReconciliationResult.confirmed _) hres

/-- **While executors verify, no stored success is unverified.** -/
theorem stored_verified (h : Reach py order tr w) (hv : ∀ e ∈ tr, e.step.verifies = true) :
    VerifiedStored w := by
  induction h using Reach.induct with
  | start =>
    intro x row stored r hrow
    cases hrow
  | step t c s tr w h ih hj ha h' =>
    have hold := ih fun e he => hv e (List.mem_cons_of_mem _ he)
    intro x row stored r hrow hout hr
    cases row_cases hj ha x with
    | begun _ _ _ hnew =>
      obtain rfl := Option.some.inj (hnew.symm.trans hrow)
      cases hout
    | finished hfin hbefore hnew =>
      obtain rfl := Option.some.inj (hnew.symm.trans hrow)
      obtain rfl := Option.some.inj hout
      refine hfin.confirmed (fun s hs => ?_) hr
      obtain ⟨e, he, -, rfl⟩ := mem_own.mp hs
      exact hv e (List.mem_cons_of_mem _ he)
    | discarded _ _ _ hnew => exact absurd (hnew.symm.trans hrow) (by simp)
    | untouched hsame => exact hold x row stored r (hsame.symm.trans hrow) hout hr

end Stored

/-! ## The tool boundary -/

section Agent

variable {py : Platform} {order : Option RowOrder} {A : Step → Prop} {G : World → Step → Prop}
  {w : World} {p actor : String} {policy : RedactionPolicy}

variable (py) in
/-- What a tool call does after its execution. -/
def reportOutcome (p : String) : CallResult → Db AgentResult
  | .executed result => do
    let state ← Db.getState p
    return .tool { allowed := result.status.value == "succeeded"
                   pathwayId := p
                   state := state.value
                   output := result.output
                   reason := result.reason }
  | _ => .raise (.typeError "not an execution")

/-- A tool call is refused at once, or it is an execution with a read of the state after it. -/
theorem AgentCall.tool_cases (py : Platform) (policy : RedactionPolicy)
    (executorFor : String → Except PyError Unit) (p actor : String) (call : AgentToolCall) :
    (∃ e, (AgentCall.tool policy executorFor p actor call).body py = .raise e) ∨
      ∃ request, (AgentCall.tool policy executorFor p actor call).body py =
        (Call.body py ⟨policy, .execute p request actor⟩).bind (reportOutcome p) := by
  unfold AgentCall.body invoke
  dsimp only
  cases hrequest : call.request with
  | error e => exact .inl ⟨e, rfl⟩
  | ok request =>
    cases hexecutor : executorFor call.toolName with
    | error e => exact .inl ⟨e, rfl⟩
    | ok u =>
      refine .inr ⟨request, ?_⟩
      simp only [Call.body, Prog.ofExcept, Prog.bind_eq, Prog.pure_eq, Prog.bind, Prog.bind_assoc,
        reportOutcome]

theorem reportOutcome_run {order : Option RowOrder} (p : String) (r : CallResult) {t : ℕ}
    {c : AgentCall} (os : List Oracle) (h : Hist AgentCall World Step) :
    ((database py order).run t c (reportOutcome p r) os h).2.world = h.world := by
  cases r
  case executed result =>
    cases os with
    | nil => rfl
    | cons o os =>
      show ((database py order).run t c ((Prog.ofExcept (h.world.getState p)).bind _) os _).2.world = _
      cases h.world.getState p <;> cases os <;> rfl
  all_goals cases os <;> rfl

/-- **Calls of a tool boundary do to the databases what executions do.** -/
theorem agent_shows (py : Platform) (order : Option RowOrder) (calls : List (AgentCall × List Oracle)) :
    ∃ base, Machine.Shows (sequential py order base) (agentSequential py order calls) := by
  induction calls using List.reverseRecOn with
  | nil => exact ⟨[], ⟨rfl, fun e he => absurd he List.not_mem_nil⟩⟩
  | append_singleton calls call ih =>
    obtain ⟨base, hshows⟩ := ih
    obtain ⟨c, os⟩ := call
    rw [agentSequential, Machine.sessions_append]
    cases c with
    | direct c =>
      refine ⟨base ++ [(c, os)], ?_⟩
      rw [sequential_append]
      exact Machine.Shows.run_bind (fun a os h => by cases os <;> rfl) hshows
    | tool policy executorFor p actor call =>
      rcases AgentCall.tool_cases py policy executorFor p actor call with ⟨e, hbody⟩ | ⟨request, hbody⟩
      · refine ⟨base, ?_⟩
        rw [hbody]
        cases os <;> exact hshows
      · refine ⟨base ++ [(⟨policy, .execute p request actor⟩, os)], ?_⟩
        rw [sequential_append, hbody]
        exact Machine.Shows.run_bind (fun r os h => reportOutcome_run p r os h) hshows

/-! ## What a reported success says -/

/-- A success of `execute` alone, while executors verify. -/
theorem solo_execute_success {request : ExecutionRequest} (hw : VerifiedStored w) :
    Solo py order (fun s => s.verifies = true) (fun _ _ => True)
      (Leaves (fun r w' => r.status = .succeeded → w'.state p = some .completed) fun _ => True)
      (execute py policy p request actor) w := by
  refine Machine.Ensures.mono solo_execute fun x w' hx => ?_
  cases x with
  | error e => trivial
  | ok r =>
    intro hs
    cases hx with
    | replayed h hrow hout hr hfin hstate =>
      rw [hstate, (hw _ _ _ _ hrow hout hr).target hs]
    | dispatched h ha hr hstate =>
      rcases hr with ⟨rfl, -⟩ | ⟨hunknown, -⟩
      · rw [hstate, ExecutionResult.Confirmed.target (of_decide_eq_true ha) hs]
      · rw [hunknown] at hs
        cases hs
    | unresolved h hne hunknown =>
      rw [hunknown] at hs
      cases hs

/-- A success reported by a call alone, while executors verify. -/
theorem solo_reports (order : Option RowOrder) {c : AgentCall} (hw : VerifiedStored w) :
    Solo py order (fun s => s.verifies = true) (fun _ _ => True)
      (Leaves (fun r w' => ∀ p, ReportsSuccess p c r → w'.state p = some .completed) fun _ => True)
      (c.body py) w := by
  have hexecute : ∀ (policy : RedactionPolicy) (p : String) (request : ExecutionRequest) (actor : String),
      Solo py order (fun s => s.verifies = true) (fun _ _ => True) (Leaves (fun r w' =>
        ∃ result, r = .executed result ∧ (result.status = .succeeded → w'.state p = some .completed))
        fun _ => True) (Call.body py ⟨policy, .execute p request actor⟩) w := by
    intro policy p request actor
    exact solo_seq (solo_execute_success hw) (fun r w' hr => solo_pure ⟨r, rfl, hr⟩) fun _ _ _ => trivial
  cases c with
  | direct call =>
    by_cases hcall : ∃ policy p request actor, call = ⟨policy, .execute p request actor⟩
    · obtain ⟨policy, p, request, actor, rfl⟩ := hcall
      refine solo_seq (hexecute policy p request actor) (fun r w' hr => ?_) fun _ _ _ => trivial
      obtain ⟨result, rfl, hsuccess⟩ := hr
      refine solo_pure fun q hq => ?_
      cases hq with
      | execute hs => exact hsuccess hs
    · have hnone : ∀ r p, ¬ ReportsSuccess p (.direct call) r := by
        intro r p hr
        cases hr with
        | execute hs => exact hcall ⟨_, _, _, _, rfl⟩
      refine Machine.Ensures.invariant (I := fun _ => True) (fun _ _ _ _ => ⟨fun _ => trivial, trivial⟩)
        (fun x w' _ => ?_) trivial
      cases x with
      | ok r => exact fun p hp => absurd hp (hnone r p)
      | error e => trivial
  | tool policy executorFor p actor call =>
    have hcases := AgentCall.tool_cases py policy executorFor p actor call
    generalize (AgentCall.tool policy executorFor p actor call).body py = body at hcases
    rcases hcases with ⟨e, rfl⟩ | ⟨request, rfl⟩
    · exact solo_raise trivial
    · refine solo_seq (hexecute policy p request actor) (fun r w' hr => ?_) fun _ _ _ => trivial
      obtain ⟨result, rfl, hsuccess⟩ := hr
      refine solo_getState (fun s hs => solo_pure fun q hq => ?_) fun _ => trivial
      cases hq with
      | invoke hallowed =>
        exact hsuccess (ExecutionStatus.value_injective (of_decide_eq_true hallowed))

end Agent

/-- **While executors verify, a reported success leaves its pathway `COMPLETED`.** -/
theorem success_completed (py : Platform) (order : Option RowOrder)
    (calls : List (AgentCall × List Oracle)) (c : AgentCall) (os : List Oracle) (p : String)
    (result : AgentResult)
    (hverify : ∀ e ∈ (agentLast py order calls c os).2.trace, e.step.verifies = true)
    (hreturned : (agentLast py order calls c os).1 = .returned result)
    (hsuccess : ReportsSuccess p c result) :
    (agentLast py order calls c os).2.world.state p = some .completed := by
  obtain ⟨new, hnew, -⟩ := (database py order).run_trace (t := calls.length) (c := c) (c.body py) os
    (agentSequential py order calls)
  have hall : ∀ e ∈ new ++ (agentSequential py order calls).trace, e.step.verifies = true := by
    rw [← hnew]
    exact hverify
  -- The databases are those of a run of the runtime alone, whose executors verify too.
  have hstored : VerifiedStored (agentSequential py order calls).world := by
    obtain ⟨base, hshows⟩ := agent_shows py order calls
    rw [hshows.world]
    refine stored_verified (sequential_reach py order base).1 fun e' he' => ?_
    obtain ⟨e, he, hstep⟩ := hshows.steps e' he'
    exact hstep ▸ hall e (List.mem_append_right _ he)
  have hrun := (Machine.ensures_run (solo_reports order hstored) hnew fun e he =>
    hall e (List.mem_append_left _ he)).2
  rw [show (database py order).run calls.length c (c.body py) os (agentSequential py order calls) =
    agentLast py order calls c os from rfl, hreturned] at hrun
  exact hrun p hsuccess

/-- A tool call on an approved pathway. -/
def toolCall : AgentCall := .tool .default (fun _ => .ok ()) "p" "executor" ⟨"write", [], "call"⟩

def agentApproved : List (AgentCall × List Oracle) := approvedCalls.map fun c => (.direct c.1, c.2)

/-- An executor that returns this result. -/
def toolOracles (result : ExecutionResult) : List Oracle :=
  List.replicate 40 { executor := .returned result }

/-- The call ended with an outcome that is allowed. -/
def allows : Outcome PyError AgentResult → Bool
  | .returned (.tool outcome) => outcome.allowed
  | _ => false

theorem allows_eq_true {o : Outcome PyError AgentResult} (h : allows o = true) :
    ∃ outcome, o = .returned (.tool outcome) ∧ outcome.allowed = true := by
  unfold allows at h
  split at h
  · exact ⟨_, rfl, h⟩
  · cases h

theorem success_completed_tool : (agentLast .sample none agentApproved toolCall
    (toolOracles ⟨.succeeded, [], some ⟨true, [], none⟩, none⟩)).2.world.state "p" =
      some .completed := by
  have hrun : (∀ e ∈ (agentLast .sample none agentApproved toolCall
        (toolOracles ⟨.succeeded, [], some ⟨true, [], none⟩, none⟩)).2.trace, e.step.verifies = true) ∧
      allows (agentLast .sample none agentApproved toolCall
        (toolOracles ⟨.succeeded, [], some ⟨true, [], none⟩, none⟩)).1 = true := by
    decide +kernel
  obtain ⟨outcome, hreturned, hallowed⟩ := allows_eq_true hrun.2
  exact success_completed .sample none agentApproved toolCall _ "p" _ hrun.1 hreturned (.invoke hallowed)

/-- **An unverified success is reported**: the tool call is allowed, and the pathway is left in
`WRITE_STATUS_UNKNOWN`. -/
theorem success_unverified : ¬ ∀ (py : Platform) (order : Option RowOrder)
    (calls : List (AgentCall × List Oracle)) (c : AgentCall) (os : List Oracle) (p : String)
    (result : AgentResult), (agentLast py order calls c os).1 = .returned result →
    ReportsSuccess p c result → (agentLast py order calls c os).2.world.state p = some .completed := by
  intro h
  have hrun : allows (agentLast .sample none agentApproved toolCall
        (toolOracles ⟨.succeeded, [], none, none⟩)).1 = true ∧
      (agentLast .sample none agentApproved toolCall
        (toolOracles ⟨.succeeded, [], none, none⟩)).2.world.state "p" = some .writeStatusUnknown := by
    decide +kernel
  obtain ⟨outcome, hreturned, hallowed⟩ := allows_eq_true hrun.1
  have hcompleted := h .sample none agentApproved toolCall _ "p" _ hreturned (.invoke hallowed)
  exact absurd (hcompleted.symm.trans hrun.2) (by decide)

end Rpr
