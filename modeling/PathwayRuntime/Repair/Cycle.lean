import PathwayRuntime.Dispatch.Once

/-!
# Failure, repair and resume

Calls are made one after another.

* `RepairsBound`: every repair names the attempt its pathway is bound to, and `READY_TO_RESUME` is
  not entered by a plain transition once a repair was completed.
* **`resumes_repaired`**: then every `pathway_resumed` event names the attempt bound before it, and
  a repair of that attempt lies between.
* **`others_failed`**: when moreover every reconciliation observes the row of its own attempt, every
  other attempt dispatched on a pathway has failed when the executor is invoked.
* `resumed_unrepaired`, `dispatched_over_unknown`: a repair of an earlier failure resumes a pathway
  whose last attempt is unknown.
-/

set_option autoImplicit false

namespace Rpr

open Resume

/-! ## The conditions -/

/-- A commit into `READY_TO_RESUME` repairs the attempt the pathway is bound to, or is made before
any repair was completed. -/
def repairsBound (e : Record) : Bool :=
  match e.step with
  | .transitionWithEvent p _ .readyToResume _ (.ok ()) =>
    match e.caller.method with
    | .completeRepair _ _ prior _ _ _ => activeAttempt (e.before.log p) = .ok prior
    | _ => (e.before.log p).all fun x => x.eventType ≠ "repair_completed"
  | _ => true

def RepairsBound (tr : List Record) : Prop := ∀ e ∈ tr, repairsBound e = true

instance : DecidablePred RepairsBound :=
  fun tr => inferInstanceAs (Decidable (∀ e ∈ tr, repairsBound e = true))

/-! ## Repairs in a log -/

/-- A repair of `x` was completed since the newest entry into `RUNNING`, which names `x`. -/
def RepairedSince (log : List EvidenceEvent) (x : String) : Prop :=
  ∃ mid b rest, log = mid ++ b :: rest ∧ (∀ m ∈ mid, m.entersRunning = false) ∧
    b.entersRunning = true ∧ b.binding = some x ∧
    ∃ r ∈ mid, r.eventType = "repair_completed" ∧ r.text? "prior_attempt_id" = some x

section Log

variable {log : List EvidenceEvent} {e : EvidenceEvent} {x : String}

theorem RepairedSince.active (h : RepairedSince log x) : activeAttempt log = .ok x := by
  obtain ⟨mid, b, rest, hlog, hskip, hb, hx, -⟩ := h
  exact activeAttempt_eq_ok.mpr ⟨mid, b, rest, hlog, hskip, hb, hx⟩

theorem RepairedSince.cons (h : RepairedSince log x) (he : e.entersRunning = false) :
    RepairedSince (e :: log) x := by
  obtain ⟨mid, b, rest, rfl, hskip, hb, hx, r, hr, hrepair⟩ := h
  exact ⟨e :: mid, b, rest, rfl, List.forall_mem_cons.mpr ⟨he, hskip⟩, hb, hx, r,
    List.mem_cons_of_mem _ hr, hrepair⟩

/-- A repair of the bound attempt. -/
theorem RepairedSince.repair (h : activeAttempt log = .ok x) (he : e.entersRunning = false)
    (hty : e.eventType = "repair_completed") (hprior : e.text? "prior_attempt_id" = some x) :
    RepairedSince (e :: log) x := by
  obtain ⟨newer, b, older, rfl, hskip, hb, hx⟩ := activeAttempt_eq_ok.mp h
  exact ⟨e :: newer, b, older, rfl, List.forall_mem_cons.mpr ⟨he, hskip⟩, hb, hx, e,
    List.mem_cons_self, hty, hprior⟩

theorem latestRepair_none (h : ∀ e ∈ log, e.eventType ≠ "repair_completed") :
    latestRepair log = none := by
  rw [latestRepair, List.find?_eq_none.mpr fun e he => by simpa using h e he]
  rfl

/-- Every `pathway_resumed` event of the log resumes the attempt bound before it, after its repair. -/
def ResumesRepaired (log : List EvidenceEvent) : Prop :=
  ∀ newer e older, log = newer ++ e :: older → e.eventType = "pathway_resumed" →
    ∃ x, e.text? "prior_attempt_id" = some x ∧ RepairedSince older x

theorem ResumesRepaired.cons (h : ResumesRepaired log) (he : e.eventType = "pathway_resumed" →
    ∃ x, e.text? "prior_attempt_id" = some x ∧ RepairedSince log x) : ResumesRepaired (e :: log) := by
  intro newer e' older hlog hty
  cases newer with
  | nil =>
    obtain ⟨rfl, rfl⟩ := List.cons.inj hlog
    exact he hty
  | cons e'' newer => exact h newer e' older (List.cons.inj hlog).2 hty

end Log

/-! ## The invariant -/

/-- What the log of a pathway says about its state: it is `READY_TO_RESUME` after a completed repair
only for the bound attempt, and a repaired or resumed pathway has been running. -/
structure CycleInv (w : World) (p : String) : Prop where
  ready : ∀ prior, w.state p = some .readyToResume → latestRepair (w.log p) = some prior →
    RepairedSince (w.log p) prior
  ran : latestRepair (w.log p) ≠ none → ∃ s ∈ afterRunning, w.state p = some s
  resumes : ResumesRepaired (w.log p)

section Invariant

variable {py : Platform} {order : Option RowOrder} {t : ℕ} {c : Call} {s : Step} {tr : List Record}
  {w w' : World} {p x : String} {e : EvidenceEvent}

/-- An event that neither repairs nor resumes. -/
theorem CycleInv.plain (h : CycleInv w p) (hlog : w'.log p = e :: w.log p)
    (hrepair : e.eventType ≠ "repair_completed") (hresume : e.eventType ≠ "pathway_resumed")
    (hran : (∃ s ∈ afterRunning, w.state p = some s) → ∃ s ∈ afterRunning, w'.state p = some s)
    (hready : w'.state p = some .readyToResume → latestRepair (w.log p) = none ∨
      (w.state p = some .readyToResume ∧ e.entersRunning = false)) : CycleInv w' p := by
  refine ⟨fun prior hs hlatest => ?_, fun hlatest => ?_, ?_⟩
  · rw [hlog, latestRepair_skip hrepair] at hlatest
    rw [hlog]
    rcases hready hs with hnone | ⟨hs', he⟩
    · rw [hnone] at hlatest
      cases hlatest
    · exact (h.ready prior hs' hlatest).cons he
  · rw [hlog, latestRepair_skip hrepair] at hlatest
    exact hran (h.ran hlatest)
  · rw [hlog]
    exact h.resumes.cons fun hty => absurd hty hresume

/-- Before a repair has been completed, plain transitions enter `READY_TO_RESUME`. -/
theorem repairsBound_plain {cur : PathwayState} (h : repairsBound
      ⟨t, c, w, .transitionWithEvent p cur .readyToResume e (.ok ())⟩ = true)
    (hc : ∀ q a prior evidence reason comp, c.method ≠ .completeRepair q a prior evidence reason comp) :
    latestRepair (w.log p) = none := by
  unfold repairsBound at h
  dsimp only at h
  split at h
  · rename_i hm
    exact absurd hm (hc _ _ _ _ _ _)
  · exact latestRepair_none (by simpa using h)

theorem repairsBound_repair {cur : PathwayState} {q a prior : String} {evidence : PyDict}
    {reason : PyText} {comp : Option CompensationRecord} (h : repairsBound
      ⟨t, c, w, .transitionWithEvent p cur .readyToResume e (.ok ())⟩ = true)
    (hc : c.method = .completeRepair q a prior evidence reason comp) :
    activeAttempt (w.log p) = .ok prior := by
  unfold repairsBound at h
  simp only [hc] at h
  simpa using h

/-- A commit into another state by an event that neither repairs nor resumes. -/
theorem CycleInv.committed (h : CycleInv w p) {cur target : PathwayState}
    (hedge : target ∈ allowedTransitions cur) (hcur : w.state p = some cur)
    (hstate : (w.commit p target e).state p = some target)
    (hlog : (w.commit p target e).log p = e :: w.log p)
    (hrepair : e.eventType ≠ "repair_completed") (hresume : e.eventType ≠ "pathway_resumed")
    (hready : target = .readyToResume → latestRepair (w.log p) = none) :
    CycleInv (w.commit p target e) p := by
  refine h.plain hlog hrepair hresume ?_ fun hs => .inl (hready (Option.some.inj (hstate.symm.trans hs)))
  rintro ⟨st, hst, hs⟩
  obtain rfl := Option.some.inj (hcur.symm.trans hs)
  exact ⟨target, afterRunning_closed hst hedge, hstate⟩

/-- A resumption reads the log it extends. -/
theorem resume_reads (h : SerialReach py order t tr w) {policy : RedactionPolicy} {actor prior next : String}
    {payload : List (String × PyValue)} {cur target : PathwayState} {d : PathwayDefinition}
    {rec : ExecutionAttemptRecord} {key : String} {events : List EvidenceEvent} {mid : Own}
    (hcheck : Checked p d cur target actor
      [.events p events, .getAttempt next (.error (.keyError key)), .getAttempt prior (.ok rec)] mid)
    (hseal : Sealed py policy p "pathway_resumed" actor payload mid (own t tr) e) :
    events.reverse = w.log p ∧ w.attempts.lookup prior = some rec.toAttemptRow := by
  have hover := hcheck.quiet.trans hseal.quiet
  obtain ⟨newer, older, w₀, -, -, halone, -⟩ := h.start (hover.silent (by simp [Step.dispatch]))
  have hread := halone.over hover
  have hanswers := hread.answers (by simp [Step.quiet])
  obtain rfl := hread.quiet (by simp [Step.quiet])
  have hevents : events = (w.log p).reverse := hanswers (.events p events) (by simp)
  have hattempt : .ok rec = w.getAttempt prior := hanswers (.getAttempt prior (.ok rec)) (by simp)
  refine ⟨by rw [hevents, List.reverse_reverse], ?_⟩
  unfold World.getAttempt at hattempt
  cases hget : w.attempts.get prior with
  | none => simp only [hget] at hattempt; cases hattempt
  | some rec' =>
    simp only [hget, Except.ok.injEq] at hattempt
    obtain ⟨hrow, hid⟩ := Ledger.get_eq_some.mp hget
    rw [hattempt, hrow]

/-- A completed repair of the bound attempt. -/
theorem CycleInv.repaired (h : CycleInv w p) {policy : RedactionPolicy} {actor prior : String}
    {evidence : PyDict} {value : PyValue} {reason : PyText} {cur : PathwayState} {base o : Own}
    (hseal : Sealed py policy p "repair_completed" actor
      (edgeFields cur .readyToResume ++ [("prior_attempt_id", .text prior),
        ("repair_evidence", .dict evidence), ("compensation", value), ("reason", .str reason)]) base o e)
    (hk : policy.KeepsBindings py) (henters : e.entersRunning = false)
    (hactive : activeAttempt (w.log p) = .ok prior)
    (hstate : (w.commit p .readyToResume e).state p = some .readyToResume)
    (hlog : (w.commit p .readyToResume e).log p = e :: w.log p) :
    CycleInv (w.commit p .readyToResume e) p := by
  have hty := hseal.fields.2.1
  have hprior : e.text? "prior_attempt_id" = some prior :=
    hseal.text (hk "prior_attempt_id" (by decide)) rfl (by simp [edgeFields])
  refine ⟨fun prior' _ hlatest => ?_, fun _ => ⟨_, by decide, hstate⟩, ?_⟩
  · rw [hlog, latestRepair_enter hty, hprior] at hlatest
    rw [hlog, ← Option.some.inj hlatest]
    exact .repair hactive henters hty hprior
  · rw [hlog]
    exact h.resumes.cons fun h => absurd (hty.symm.trans h) (by decide)

/-- A repaired pathway has been running, so it is resumed from `READY_TO_RESUME`. -/
theorem CycleInv.resumable (h : CycleInv w p) {cur : PathwayState} {prior : String}
    (hcur : w.state p = some cur) (hedge : .running ∈ allowedTransitions cur)
    (hrepair : latestRepair (w.log p) = some prior) : RepairedSince (w.log p) prior := by
  refine h.ready prior ?_ hrepair
  obtain ⟨st, hst, hs⟩ := h.ran (by rw [hrepair]; simp)
  obtain rfl := Option.some.inj (hcur.symm.trans hs)
  rw [hcur]
  revert hedge hst
  cases cur <;> decide

/-- A resumption after the repair of the bound attempt. -/
theorem CycleInv.resumed (h : CycleInv w p) {policy : RedactionPolicy} {actor prior next : String}
    {reason : PyText} {cur : PathwayState} {base o : Own}
    (hseal : Sealed py policy p "pathway_resumed" actor (edgeFields cur .running ++
      [("prior_attempt_id", .text prior), ("next_attempt_id", .text next), ("reason", .str reason)])
      base o e)
    (hk : policy.KeepsBindings py) (hsince : RepairedSince (w.log p) prior)
    (hstate : (w.commit p .running e).state p = some .running)
    (hlog : (w.commit p .running e).log p = e :: w.log p) : CycleInv (w.commit p .running e) p := by
  have hprior : e.text? "prior_attempt_id" = some prior :=
    hseal.text (hk "prior_attempt_id" (by decide)) rfl (by simp [edgeFields])
  refine ⟨fun prior' hs _ => ?_, fun _ => ⟨_, by decide, hstate⟩, ?_⟩
  · exact absurd (hstate.symm.trans hs) (by simp)
  · rw [hlog]
    exact h.resumes.cons fun _ => ⟨prior, hprior, hsince⟩

/-- **One step keeps the cycle.** -/
theorem CycleInv.step (h : CycleInv w p) (hreach : SerialReach py order t tr w)
    (hj : Justified py c (own t tr) s) (ha : s.Answers py order w) (hk : c.policy.KeepsBindings py)
    (hb : repairsBound ⟨t, c, w, s⟩ = true) : CycleInv (s.effect w) p := by
  cases pathway_cases hj ha p with
  | created hd hreg hnew hstate hdef =>
    have hlog := log_unregistered hreach.reach hnew
    refine ⟨fun prior _ hlatest => ?_, fun hlatest => ?_, ?_⟩
    · rw [Step.effect, World.log_create, hlog] at hlatest
      cases hlatest
    · rw [Step.effect, World.log_create, hlog] at hlatest
      exact absurd rfl hlatest
    · rw [Step.effect, World.log_create, hlog]
      intro newer e older htr
      simp at htr
  | @committed cur target e hcommit hcur hstate hlog =>
    have hedge := hcommit.edge.1
    have henters := hcommit.entersRunning hk
    show CycleInv (w.commit p target e) p
    cases hcommit with
    | requested hc hrun hcheck hseal =>
      have hty := hseal.fields.2.1
      refine h.committed hedge hcur hstate hlog (by rw [hty]; decide) (by rw [hty]; decide) ?_
      rintro rfl
      refine repairsBound_plain hb fun q a prior evidence reason comp hm => ?_
      rw [hm] at hc
      exact hc
    | moved hc hmove hcheck hseal =>
      have hty := hseal.fields.2.1
      refine h.committed hedge hcur hstate hlog (by rw [hty]; decide) (by rw [hty]; decide) ?_
      rcases hmove.target_cases with h | h | h <;> rw [h] <;> exact fun h => by cases h
    | started hc hbegun hstart =>
      obtain ⟨d, mid, hcheck, hseal⟩ := hstart
      have hty := hseal.fields.2.1
      exact h.committed hedge hcur hstate hlog (by rw [hty]; decide) (by rw [hty]; decide)
        fun h => by cases h
    | late hc hres hr hbase hseal =>
      have hty := hseal.fields.2.1
      refine h.committed hedge hcur hstate hlog (by rw [hty]; decide) (by rw [hty]; decide) ?_
      rcases ExecutionResult.finalTarget_cases hr with ⟨h, -⟩ | ⟨h, -⟩ <;> rw [h] <;>
        exact fun h => by cases h
    | reconciled hc hres hseal =>
      have hty := hseal.fields.2.1
      refine h.committed hedge hcur hstate hlog (by rw [hty]; decide) (by rw [hty]; decide) ?_
      unfold ExecutionResult.reconciledTarget
      split_ifs <;> exact fun h => by cases h
    | repaired hc hrec hcheck hseal =>
      exact h.repaired hseal hk henters (repairsBound_repair hb hc) hstate hlog
    | resumed hc hblank hne hrec hrepair hcheck hseal =>
      rw [(resume_reads hreach hcheck hseal).1] at hrepair
      exact h.resumed hseal hk (h.resumable hcur hedge hrepair) hstate hlog
    | closed hc hres hactor hedge' hseal =>
      have hty := hseal.fields.2.1
      exact h.committed hedge hcur hstate hlog (by rw [hty]; decide) (by rw [hty]; decide)
        fun h => by cases h
  | @appended e happ hp hlog =>
    have hty := happ.eventType
    refine h.plain hlog (fun he => hty (by rw [he]; decide)) (fun he => hty (by rw [he]; decide)) id
      fun hs => .inr ⟨hs, happ.entersRunning⟩
  | untouched hstate hdef hlog =>
    exact ⟨by rw [hstate, hlog]; exact h.ready, by rw [hstate, hlog]; exact h.ran, hlog ▸ h.resumes⟩

/-- **The cycle of every pathway in a serial history whose repairs are of the bound attempt.** -/
theorem cycleInv_of_reach (h : Reach py order tr w) (hs : Serial tr)
    (hk : ∀ e ∈ tr, e.caller.policy.KeepsBindings py) (hb : RepairsBound tr) : CycleInv w p := by
  revert hk hb
  refine serial_induct (motive := fun tr w => (∀ e ∈ tr, e.caller.policy.KeepsBindings py) →
    RepairsBound tr → CycleInv w p) (fun _ _ => ?_) ?_ h hs
  · exact ⟨fun _ hs => (by cases hs), fun hlatest => absurd rfl hlatest,
      fun newer e older htr => absurd htr (by simp [World.log, World.empty])⟩
  · intro t c s tr w h ih hj ha hk hb
    have hbefore := ih [] tr w rfl h.reach (fun e he => hk e (List.mem_cons_of_mem _ he))
      fun e he => hb e (List.mem_cons_of_mem _ he)
    exact hbefore.step h hj ha (hk ⟨t, c, w, s⟩ List.mem_cons_self) (hb _ List.mem_cons_self)

end Invariant

/-- **Resume is justified by repair of the failure being resumed**, in every run of calls made one
after another whose repairs are of the bound attempt and whose redaction policies keep the binding
keys. -/
theorem resumes_repaired (py : Platform) (order : Option RowOrder) (calls : List (Call × List Oracle))
    (hk : ∀ call ∈ calls, call.1.policy.KeepsBindings py)
    (hb : RepairsBound (sequential py order calls).trace) (p : String) :
    ResumesRepaired ((sequential py order calls).world.log p) := by
  obtain ⟨hreach, hserial, -⟩ := sequential_reach py order calls
  exact (cycleInv_of_reach hreach hserial (sequential_keeps hk) hb).resumes

theorem failedRepaired_keeps : ∀ call ∈ failedRepaired, call.1.policy.KeepsBindings .sample := by
  simp [failedRepaired, executing, repairing, resuming, Method.answered,
    RedactionPolicy.default_keepsBindings]

theorem resumes_repaired_once : ResumesRepaired ((sequential .sample none failedRepaired).world.log "p") :=
  resumes_repaired .sample none failedRepaired failedRepaired_keeps (by decide +kernel) "p"

/-- The attempt `b` is left unknown, and the repair of `a` is completed again to follow with `c`. -/
def repairedTwice : List (Call × List Oracle) :=
  failedRepaired ++ [executing requestB ⟨.writeStatusUnknown, [], none, none⟩,
    (Method.requireRepair "p" "repairer" "unknown").answered {}, repairing "a", resuming "a" "c"]

/-- **A repair of an earlier failure resumes a pathway whose last attempt is unknown.** -/
theorem resumed_unrepaired : completed .sample none repairedTwice = true ∧
    ¬ ResumesRepaired ((sequential .sample none repairedTwice).world.log "p") := by
  have hrun : completed .sample none repairedTwice = true ∧
      ((sequential .sample none repairedTwice).world.log "p").head?.map
        (fun e => (e.eventType, e.text? "prior_attempt_id")) = some ("pathway_resumed", some "a") ∧
      activeAttempt ((sequential .sample none repairedTwice).world.log "p").tail = .ok "b" := by
    decide +kernel
  obtain ⟨hcompleted, hhead, htail⟩ := hrun
  refine ⟨hcompleted, fun h => ?_⟩
  generalize (sequential .sample none repairedTwice).world.log "p" = log at h hhead htail
  cases log with
  | nil => cases hhead
  | cons e log =>
    simp only [List.head?_cons, Option.map_some, Option.some.injEq, Prod.mk.injEq] at hhead
    obtain ⟨x, hx, hsince⟩ := h [] e log rfl hhead.1
    rw [hhead.2] at hx
    rw [List.tail_cons, hsince.active, ← Option.some.inj hx] at htail
    exact absurd htail (by simp)

/-! ## Attempts that are not bound have failed -/

/-- The row of the attempt says that it failed. -/
def Failed (w : World) (x : String) : Prop :=
  ∃ row, w.attempts.lookup x = some row ∧ row.final = some .failed

/-- Every attempt dispatched on a pathway has failed, unless the pathway is bound to it. -/
def UnboundFailed (tr : List Record) (w : World) : Prop :=
  ∀ p x, (p, x) ∈ dispatches tr → activeAttempt (w.log p) ≠ .ok x → Failed w x

section Failed

variable {py : Platform} {order : Option RowOrder} {t : ℕ} {c : Call} {s : Step} {tr : List Record}
  {w : World} {p x : String}

/-- A row whose outcome is about to be stored has not failed. -/
theorem Finishes.unfailed (h : SerialReach py order t tr w) {res : PersistedResult}
    (hj : Finishes py c (own t tr) x res) (hobserve : ObservesOwn tr) : ¬ Failed w x := by
  rintro ⟨row, hrow, hfailed⟩
  obtain ⟨newer, older, w₀, rfl, hsteps, -, halone⟩ := h.whole
  generalize own t (newer ++ older) = o at hj halone hsteps
  cases hj with
  | executed hc hdis =>
    -- The row was inserted by the call itself.
    obtain ⟨hcleared⟩ := hdis
    obtain ⟨w', halone, -, rfl⟩ := halone
    obtain ⟨row', hrow', -, hout⟩ := (hcleared.alone halone).1.row
    obtain rfl := Option.some.inj (hrow'.symm.trans hrow)
    rw [AttemptRow.final, hout] at hfailed
    cases hfailed
  | reconciled hc hobs =>
    -- The row was found without a final result.
    obtain ⟨hadm, hrec⟩ := hobs
    obtain ⟨_, ⟨_, -, hbegin, rfl⟩, -, rfl⟩ := halone
    obtain ⟨e, he, hs⟩ := List.mem_map.mp (hsteps.symm ▸ List.mem_cons_self)
    have hsame := hobserve e (List.mem_append_left _ he)
    rw [observesOwn, hs] at hsame
    obtain ⟨hfound, -, -⟩ := replayed_row hbegin
    rw [of_decide_eq_true hsame] at hfound
    obtain rfl := Option.some.inj (hfound.symm.trans hrow)
    obtain ⟨stored, hstored, hst⟩ := Option.map_eq_some_iff.mp hfailed
    rw [hrec stored hstored] at hst
    cases hst

/-- A failed attempt stays failed. -/
theorem Failed.kept (hf : Failed w x) (h : SerialReach py order t tr w)
    (hj : Justified py c (own t tr) s) (ha : s.Answers py order w) (hobserve : ObservesOwn tr) :
    Failed (s.effect w) x := by
  obtain ⟨row, hrow, hfailed⟩ := id hf
  cases row_cases hj ha x with
  | begun _ _ hnew => exact absurd (hnew.symm.trans hrow) (by simp)
  | finished hfin => exact absurd hf (hfin.unfailed h hobserve)
  | discarded _ hrow' hout =>
    obtain rfl := Option.some.inj (hrow'.symm.trans hrow)
    rw [AttemptRow.final, hout] at hfailed
    cases hfailed
  | untouched hsame => exact ⟨row, hsame.trans hrow, hfailed⟩

/-- A commit into `RUNNING` binds a pathway on which nothing was dispatched, or whose bound attempt
has failed. -/
theorem Commits.rebound (h : SerialReach py order t tr w) {cur : PathwayState} {e : EvidenceEvent}
    (hj : Commits py c (own t tr) p cur .running e) (hcur : w.state p = some cur)
    (hcycle : CycleInv w p) : (∀ x, (p, x) ∉ dispatches tr) ∨
      ∃ x, activeAttempt (w.log p) = .ok x ∧ Failed w x := by
  have hedge := hj.edge.1
  generalize htarget : PathwayState.running = target at hj hedge
  cases hj with
  | requested hc hrun => exact absurd htarget.symm hrun
  | moved hc hmove => rcases hmove.target_cases with h | h | h <;> rw [h] at htarget <;> cases htarget
  | started hc hbegun hstart =>
    obtain ⟨newer, older, w₀, -, -, -, halone⟩ := h.whole
    refine .inl fun x hd => ?_
    obtain ⟨st, hst, hs⟩ := dispatched_ran h.reach h.serial hd
    rw [hstart.alone halone] at hs
    exact absurd hst (Option.some.inj hs ▸ by decide)
  | late hc hres hr =>
    rcases ExecutionResult.finalTarget_cases hr with ⟨h, -⟩ | ⟨h, -⟩ <;> rw [h] at htarget <;> cases htarget
  | reconciled =>
    unfold ExecutionResult.reconciledTarget at htarget
    split_ifs at htarget
  | repaired => cases htarget
  | resumed hc hblank hne hrec hrepair hcheck hseal =>
    obtain ⟨hevents, hrow⟩ := resume_reads h hcheck hseal
    rw [hevents] at hrepair
    exact .inr ⟨_, (hcycle.resumable hcur hedge hrepair).active, _, hrow, hrec.2⟩
  | closed => cases htarget

/-- **Attempts a pathway is not bound to have failed.** -/
theorem unboundFailed_of_reach (h : Reach py order tr w) (hs : Serial tr)
    (hk : ∀ e ∈ tr, e.caller.policy.KeepsBindings py) (hb : RepairsBound tr)
    (hobserve : ObservesOwn tr) : UnboundFailed tr w := by
  revert hk hb hobserve
  refine serial_induct (motive := fun tr w => (∀ e ∈ tr, e.caller.policy.KeepsBindings py) →
    RepairsBound tr → ObservesOwn tr → UnboundFailed tr w)
    (fun _ _ _ _ _ hd => absurd hd List.not_mem_nil) ?_ h hs
  intro t c s tr w h ih hj ha hk hb hobserve p x hd hne
  have hk' : ∀ e ∈ tr, e.caller.policy.KeepsBindings py := fun e he => hk e (List.mem_cons_of_mem _ he)
  have hb' : RepairsBound tr := fun e he => hb e (List.mem_cons_of_mem _ he)
  have hobserve' : ObservesOwn tr := fun e he => hobserve e (List.mem_cons_of_mem _ he)
  have hkc := hk ⟨t, c, w, s⟩ List.mem_cons_self
  have hih := ih [] tr w rfl h.reach hk' hb' hobserve'
  rw [dispatches_cons] at hd
  rcases List.mem_append.mp hd with hd | hd
  · -- A new invocation is for the bound attempt.
    rw [Option.mem_toList] at hd
    obtain ⟨request, r, rfl, rfl⟩ := Step.dispatch_eq_some hd
    exact absurd ((dispatch_running h hj rfl).2 hkc.starts) hne
  · refine Failed.kept ?_ h hj ha hobserve'
    by_cases henter : ∃ cur e, s = .transitionWithEvent p cur .running e (.ok ())
    · obtain ⟨cur, e, rfl⟩ := henter
      rcases Commits.rebound h hj (World.transitionWithEvent_ok ha.symm).1
        (cycleInv_of_reach h.reach h.serial hk' hb') with hnone | ⟨y, hy, hf⟩
      · exact absurd hd (hnone x)
      · by_cases hxy : y = x
        · exact hxy ▸ hf
        · exact hih p x hd (by rw [hy]; exact fun h => hxy (Except.ok.inj h))
    · rw [activeAttempt_kept hj ha hkc fun cur e hs => henter ⟨cur, e, hs⟩] at hne
      exact hih p x hd hne

end Failed

/-- When the executor is invoked every other attempt dispatched on the pathway has failed. -/
def OthersFailed (tr : List Record) : Prop :=
  ∀ newer e older p z, tr = newer ++ e :: older → e.step.dispatch = some (p, z) →
    ∀ y, y ≠ z → (p, y) ∈ dispatches older →
      ∃ row, e.before.attempts.lookup y = some row ∧ row.status = "failed"

/-- **No dispatch over an unresolved effect**, in every run of calls made one after another whose
repairs are of the bound attempt, whose reconciliations observe the rows of their own attempts, and
whose redaction policies keep the binding keys. -/
theorem others_failed (py : Platform) (order : Option RowOrder) (calls : List (Call × List Oracle))
    (hk : ∀ call ∈ calls, call.1.policy.KeepsBindings py)
    (hb : RepairsBound (sequential py order calls).trace)
    (hobserve : ObservesOwn (sequential py order calls).trace) :
    OthersFailed (sequential py order calls).trace := by
  intro newer e older p z htr hdis y hyz hd
  obtain ⟨hreach, hserial, -⟩ := sequential_reach py order calls
  have hcallers : ∀ e ∈ (sequential py order calls).trace, e.caller.policy.KeepsBindings py :=
    sequential_keeps hk
  rw [htr] at hreach hserial hb hobserve hcallers
  obtain ⟨hbefore, hj⟩ := hreach.of_append
  obtain ⟨hlast, hold⟩ := List.pairwise_cons.mp (List.pairwise_append.mp hserial).2.1
  have hsub : ∀ m ∈ older, m ∈ newer ++ e :: older := fun m hm => by simp [hm]
  have hactive := (dispatch_running ⟨hbefore, hold, hlast⟩ hj hdis).2 (hcallers e (by simp)).starts
  obtain ⟨row, hrow, hfinal⟩ := unboundFailed_of_reach hbefore hold (fun m hm => hcallers m (hsub m hm))
    (fun m hm => hb m (hsub m hm)) (fun m hm => hobserve m (hsub m hm)) p y hd
    (by rw [hactive]; exact fun h => hyz (Except.ok.inj h).symm)
  exact ⟨row, hrow, AttemptRow.status_eq_value.mpr hfinal⟩

theorem others_failed_resumed : OthersFailed (sequential .sample none
    (failedRepaired ++ [executing requestB ⟨.failed, [], none, none⟩])).trace := by
  have hrun : RepairsBound (sequential .sample none
      (failedRepaired ++ [executing requestB ⟨.failed, [], none, none⟩])).trace ∧
      ObservesOwn (sequential .sample none
        (failedRepaired ++ [executing requestB ⟨.failed, [], none, none⟩])).trace := by
    decide +kernel
  refine others_failed .sample none _ (List.forall_mem_append.mpr ⟨failedRepaired_keeps, ?_⟩)
    hrun.1 hrun.2
  simp [executing, Method.answered, RedactionPolicy.default_keepsBindings]

/-- A third attempt follows the unknown one. -/
def thirdAttempt : List (Call × List Oracle) :=
  repairedTwice ++ [executing requestC ⟨.failed, [], none, none⟩]

/-- **The executor is invoked for `c` while `b` is unknown.** -/
theorem dispatched_over_unknown : completed .sample none thirdAttempt = true ∧
    ¬ OthersFailed (sequential .sample none thirdAttempt).trace := by
  have hrun : completed .sample none thirdAttempt = true ∧
      dispatches (sequential .sample none thirdAttempt).trace = [("p", "c"), ("p", "b"), ("p", "a")] ∧
      ∀ e ∈ (sequential .sample none thirdAttempt).trace, e.step.dispatch = some ("p", "c") →
        (e.before.attempts.lookup "b").map AttemptRow.status = some "write_status_unknown" := by
    decide +kernel
  obtain ⟨hcompleted, hdispatches, hunknown⟩ := hrun
  refine ⟨hcompleted, fun h => ?_⟩
  generalize (sequential .sample none thirdAttempt).trace = tr at h hdispatches hunknown
  have hmem : ("p", "c") ∈ dispatches tr := by simp [hdispatches]
  obtain ⟨newer, e, older, rfl, hdis⟩ := dispatches_split hmem
  have holder : ("p", "b") ∈ dispatches older := by
    rw [dispatches_append, dispatches_cons, hdis] at hdispatches
    cases hnewer : dispatches newer with
    | nil =>
      rw [hnewer] at hdispatches
      have hrest : dispatches older = [("p", "b"), ("p", "a")] := (List.cons.inj hdispatches).2
      simp [hrest]
    | cons d ds =>
      rw [hnewer] at hdispatches
      have hrest : ds ++ ("p", "c") :: dispatches older = [("p", "b"), ("p", "a")] :=
        (List.cons.inj hdispatches).2
      have : ("p", "c") ∈ [("p", "b"), ("p", "a")] := by
        rw [← hrest]
        simp
      exact absurd this (by decide)
  obtain ⟨row, hrow, hstatus⟩ := h newer e older "p" "c" rfl hdis "b" (by decide) holder
  have := hunknown e (by simp) hdis
  rw [hrow, Option.map_some, hstatus] at this
  exact absurd this (by decide)

end Rpr
