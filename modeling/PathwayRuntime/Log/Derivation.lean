import PathwayRuntime.Trace.Reach

/-!
# The log derives the state

* `Derives d s₀ log s`: the events of `log` that carry an edge form a path in the transition table
  from `s₀` to `s`, each by an event of the right kind.
* **`log_derives_state`**: in every interleaving, with crashes, the log of every pathway derives
  its stored state from the state it was registered in.
-/

set_option autoImplicit false

namespace Rpr

open Resume

/-- The payload has both ends of an edge. -/
def EvidenceEvent.carriesEdge (e : EvidenceEvent) : Bool :=
  (e.payload.get? "from").isSome && (e.payload.get? "to").isSome

/-- The payload has residuals, and they are not empty. -/
def EvidenceEvent.hasResiduals (e : EvidenceEvent) : Prop :=
  ∃ f fields, e.payload.get? "residuals" = some (.obj (f :: fields))

/-- An event of this kind may take a pathway along this edge. -/
structure EdgeAllowed (d : PathwayDefinition) (a b : PathwayState) (e : EvidenceEvent) : Prop where
  table : b ∈ allowedTransitions a
  source : a ∉ terminalStates
  running : b = .running → e.eventType = "execution_started" ∨ e.eventType = "pathway_resumed"
  completed : a = .writeStatusUnknown → b = .completed →
    e.eventType = "execution_result_after_concurrent_unknown" ∨ e.eventType = "reconciliation_result"
  aborted : b = .aborted →
    e.eventType = "residual_closure" ∧ e.actor = d.residualOwner ∧ e.hasResiduals

/-- The edges of a log, newest first, lead from `s₀` to the given state. -/
inductive Derives (d : PathwayDefinition) (s₀ : PathwayState) :
    List EvidenceEvent → PathwayState → Prop
  | start : Derives d s₀ [] s₀
  | record {e : EvidenceEvent} {log : List EvidenceEvent} {s : PathwayState}
      (h : Derives d s₀ log s) (he : e.carriesEdge = false) : Derives d s₀ (e :: log) s
  | edge {e : EvidenceEvent} {log : List EvidenceEvent} {a b : PathwayState}
      (h : Derives d s₀ log a) (ha : e.text? "from" = some a.value)
      (hb : e.text? "to" = some b.value) (he : EdgeAllowed d a b e) : Derives d s₀ (e :: log) b

/-- A call created the pathway of `d` in state `s`. -/
def RegisteredIn (tr : List Record) (d : PathwayDefinition) (s : PathwayState) : Prop :=
  ∃ e ∈ tr, ∃ fp key s', e.step = .createOrReplayPathway d fp s key (.ok (false, s'))

section Commit

variable {py : Platform} {c : Call} {own : Own} {p : String} {cur target : PathwayState}
  {e : EvidenceEvent}

theorem allowedTransitions_source (h : target ∈ allowedTransitions cur) : cur ∉ terminalStates :=
  fun hc => absurd h (by rw [allowedTransitions_terminal hc]; exact List.not_mem_nil)

/-- A plain transition obeys the rules of every edge it may take. -/
theorem edgeAllowed_plain {d d' : PathwayDefinition} {actor : String} {base mid : Own}
    (hrun : target ≠ .running) (hcheck : Checked p d' cur target actor base mid) :
    EdgeAllowed d cur target e := by
  obtain ⟨-, hedge, hauth⟩ := hcheck
  have htable := ensureTransition_ok.mp hedge
  obtain ⟨-, hab, hunknown, -, -⟩ := authorizeTransition_ok hauth
  exact ⟨htable, allowedTransitions_source htable, fun h => absurd h hrun,
    fun ha hb => absurd ⟨ha, hb⟩ hunknown, fun h => absurd h hab⟩

/-- An edge neither into `RUNNING` nor into `ABORTED`. -/
theorem edgeAllowed_result {d : PathwayDefinition} (htable : target ∈ allowedTransitions cur)
    (htarget : target = .completed ∨ target = .repairRequired)
    (hty : e.eventType = "execution_result_after_concurrent_unknown" ∨
      e.eventType = "reconciliation_result") : EdgeAllowed d cur target e := by
  refine ⟨htable, allowedTransitions_source htable, fun h => ?_, fun _ _ => hty, fun h => ?_⟩ <;>
    rcases htarget with rfl | rfl <;> exact absurd h (by decide)

/-- An edge into `RUNNING`, by an event that binds an attempt. -/
theorem edgeAllowed_running {d : PathwayDefinition} (htable : .running ∈ allowedTransitions cur)
    (hty : e.eventType = "execution_started" ∨ e.eventType = "pathway_resumed") :
    EdgeAllowed d cur .running e :=
  ⟨htable, allowedTransitions_source htable, fun _ => hty, fun _ h => absurd h (by decide),
    fun h => absurd h (by decide)⟩

/-- **Every commit takes an edge by an event of the right kind.** -/
theorem Commits.edgeAllowed {py : Platform} {order : Option RowOrder} {tr : List Record} {w : World}
    {t : ℕ} (h : Reach py order tr w) (hpol : c.policy = .default)
    (hj : Commits py c (Resume.own t tr) p cur target e) {d : PathwayDefinition}
    (hd : w.definitionJson p = some d.toDict) : EdgeAllowed d cur target e := by
  have htable := hj.edge.1
  cases hj with
  | requested hc hrun hcheck hseal => exact edgeAllowed_plain hrun hcheck
  | moved hc hmove hcheck hseal =>
    refine edgeAllowed_plain (fun hrun => ?_) hcheck
    rcases hmove.target_cases with h | h | h <;> rw [hrun] at h <;> cases h
  | started hc hb hstart =>
    obtain ⟨d', mid, hcheck, hseal⟩ := hstart
    exact edgeAllowed_running htable (.inl hseal.fields.2.1)
  | late hc hres hr hbase hseal =>
    refine edgeAllowed_result htable ?_ (.inl hseal.fields.2.1)
    exact (ExecutionResult.finalTarget_cases hr).imp And.left And.left
  | reconciled hc hres hseal =>
    refine edgeAllowed_result htable ?_ (.inr hseal.fields.2.1)
    unfold ExecutionResult.reconciledTarget
    split_ifs
    · exact .inl rfl
    · exact .inr rfl
  | repaired hc hrec hcheck hseal => exact edgeAllowed_plain (by decide) hcheck
  | resumed hc hblank hne hrec hrepair hcheck hseal =>
    exact edgeAllowed_running htable (.inr hseal.fields.2.1)
  | @closed _ residuals _ _ d' _ hc hres hactor hedge hseal =>
    have hd' : d' = d := PathwayDefinition.toDict_injective py
      (Option.some.inj ((read_stored h List.mem_cons_self hseal).symm.trans hd))
    refine ⟨htable, allowedTransitions_source htable, fun h => absurd h (by decide),
      fun _ h => absurd h (by decide), fun _ => ⟨hseal.fields.2.1, ?_, ?_⟩⟩
    · rw [hseal.fields.2.2.1, hactor.2, hd']
    · refine RedactionPolicy.redact_dict_field hseal.fields.2.2.2.1 ?_ rfl ?_ hres
      · rw [hpol]
        exact RedactionPolicy.default_sensitive py (by decide) (by decide)
      · simp [edgeFields]

end Commit

/-- The state of a registered pathway is derived by its log. -/
theorem derives_of_reach {py : Platform} {order : Option RowOrder} {tr : List Record} {w : World}
    (h : Reach py order tr w) (hpol : ∀ e ∈ tr, e.caller.policy = .default) {p : String}
    {s : PathwayState} (hs : w.state p = some s) : ∃ d s₀, d.pathwayId = p ∧
      w.definitionJson p = some d.toDict ∧ RegisteredIn tr d s₀ ∧ Derives d s₀ (w.log p) s := by
  induction h using Reach.induct generalizing s with
  | start => cases hs
  | step t c step tr w h ih hj ha h' =>
    have ih := @ih fun e he => hpol e (List.mem_cons_of_mem _ he)
    have hkeep : ∀ {d s₀}, RegisteredIn tr d s₀ → RegisteredIn (⟨t, c, w, step⟩ :: tr) d s₀ :=
      fun ⟨e, he, hs⟩ => ⟨e, List.mem_cons_of_mem _ he, hs⟩
    cases pathway_cases hj ha p with
    | @created d fp key state state' hd hreg hnew hstate hdef =>
      obtain rfl : state = s := Option.some.inj (hstate.symm.trans hs)
      refine ⟨d, state, hd, hdef, ⟨_, List.mem_cons_self, fp, key, state', rfl⟩, ?_⟩
      show Derives d state (w.log p) state
      rw [log_unregistered h hnew]
      exact .start
    | @committed cur target e hcommit hcur hstate hlog =>
      obtain rfl : target = s := Option.some.inj (hstate.symm.trans hs)
      obtain ⟨d, s₀, hd, hdef, hreg, hder⟩ := ih hcur
      have hcall : c.policy = .default := hpol ⟨t, c, w, _⟩ List.mem_cons_self
      have htext := hcommit.text (by rw [hcall]; exact RedactionPolicy.default_keepsBindings py)
      refine ⟨d, s₀, hd, (World.definitionJson_commit _ _ _ _ _).trans hdef, hkeep hreg, ?_⟩
      show Derives d s₀ ((w.commit p target e).log p) target
      rw [hlog]
      exact .edge hder htext.1 htext.2 (hcommit.edgeAllowed h hcall hdef)
    | @appended e happ hp hlog =>
      obtain ⟨d, s₀, hd, hdef, hreg, hder⟩ := ih hs
      refine ⟨d, s₀, hd, hdef, hkeep hreg, ?_⟩
      show Derives d s₀ ((w.push e).log p) s
      rw [hlog]
      refine .record hder ?_
      rw [EvidenceEvent.carriesEdge, happ.absent]
      exact Bool.and_false _
    | untouched hstate hdef hlog =>
      obtain ⟨d, s₀, hd, hdef', hreg, hder⟩ := ih (hstate.symm.trans hs)
      exact ⟨d, s₀, hd, hdef.trans hdef', hkeep hreg, hlog ▸ hder⟩

/-- **The event log is a complete derivation of the stored state**, in every interleaving of calls
under the default redaction policy, with crashes between any two operations. -/
theorem log_derives_state (py : Platform) (order : Option RowOrder)
    (calls : List (Call × List Oracle)) (acts : List (Machine.Action Call Oracle))
    (hcalls : ∀ call ∈ calls, call.1.policy = .default)
    (hacts : ∀ c, .invoke c ∈ acts → c.policy = .default) (p : String) :
    let h := interleaved py order calls acts
    (h.world.state p = none → h.world.log p = []) ∧
      ∀ s, h.world.state p = some s → ∃ d s₀, d.pathwayId = p ∧
        h.world.definitionJson p = some d.toDict ∧ RegisteredIn h.trace d s₀ ∧
        Derives d s₀ (h.world.log p) s :=
  ⟨log_unregistered (interleaved_reach py order calls acts), fun _ =>
    derives_of_reach (interleaved_reach py order calls acts) (interleaved_callers hcalls hacts)⟩

theorem log_derives_state_approval : let h := interleaved .sample none awaitingCalls approvalRace
    (h.world.state "p" = none → h.world.log "p" = []) ∧
      ∀ s, h.world.state "p" = some s → ∃ d s₀, d.pathwayId = "p" ∧
        h.world.definitionJson "p" = some d.toDict ∧ RegisteredIn h.trace d s₀ ∧
        Derives d s₀ (h.world.log "p") s :=
  log_derives_state .sample none awaitingCalls approvalRace (by simp [awaitingCalls, Method.answered])
    (by simp [approvalRace, inTurn]) "p"

end Rpr
