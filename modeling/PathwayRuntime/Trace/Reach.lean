import PathwayRuntime.Trace.Walk

/-!
# Reachable histories

* `Reach`: the traces and worlds of justified steps; `interleaved_reach`, `sequential_reach`: every
  run is one.
* `Reach.induct`: to hold in every reachable history, a fact holds at the start and is kept by every
  justified step.
* `pathway_cases`, `row_cases`: what one step can do to one pathway, and to one row of the ledger.
* `definition_read`: a definition that was read is the one that is stored.
-/

set_option autoImplicit false

namespace Rpr

open Resume

/-- A history in which every step is justified by its call's own steps. -/
def Reach (py : Platform) (order : Option RowOrder) (tr : List Record) (w : World) : Prop :=
  (database py order).Guarded (Justified py) World.empty tr w

/-- **Calls made one after another leave a justified and serial history.** -/
theorem sequential_reach (py : Platform) (order : Option RowOrder)
    (calls : List (Call × List Oracle)) :
    Reach py order (sequential py order calls).trace (sequential py order calls).world ∧
      Serial (sequential py order calls).trace ∧
      ∀ e ∈ (sequential py order calls).trace, e.tid < calls.length := by
  have := Machine.guarded_sessions (M := database py order) (Call.body_traced py) calls 0
    History.start .nil List.Pairwise.nil (fun e he => absurd he List.not_mem_nil)
  rwa [Nat.zero_add] at this

/-- **Every interleaving of calls, with crashes, leaves a justified history.** -/
theorem interleaved_reach (py : Platform) (order : Option RowOrder)
    (calls : List (Call × List Oracle)) (acts : List (Machine.Action Call Oracle)) :
    Reach py order (interleaved py order calls acts).trace
      (interleaved py order calls acts).world := by
  obtain ⟨hreach, -, htid⟩ := sequential_reach py order calls
  exact (Machine.guarded_schedule (Call.body_traced py) acts _ (Machine.Pool.ok_idle hreach htid)).trace

/-- A fact about the calls of a run is a fact about its entries. -/
theorem sequential_callers {py : Platform} {order : Option RowOrder}
    {calls : List (Call × List Oracle)} {P : Call → Prop} (hcalls : ∀ call ∈ calls, P call.1) :
    ∀ e ∈ (sequential py order calls).trace, P e.caller :=
  Machine.callers_sessions hcalls fun _ he => absurd he List.not_mem_nil

theorem sequential_keeps {py : Platform} {order : Option RowOrder} {calls : List (Call × List Oracle)}
    (hk : ∀ call ∈ calls, call.1.policy.KeepsBindings py) :
    ∀ e ∈ (sequential py order calls).trace, e.caller.policy.KeepsBindings py :=
  sequential_callers (P := fun c => c.policy.KeepsBindings py) hk

/-- The entries of an interleaving: those of the calls made one after another, and newer ones of
the calls of the schedule. -/
theorem interleaved_split (py : Platform) (order : Option RowOrder)
    (calls : List (Call × List Oracle)) {acts : List (Machine.Action Call Oracle)} {P : Call → Prop}
    (hacts : ∀ c, .invoke c ∈ acts → P c) :
    ∃ new, (interleaved py order calls acts).trace = new ++ (sequential py order calls).trace ∧
      ∀ e ∈ new, calls.length ≤ e.tid ∧ P e.caller :=
  Machine.schedule_trace (Q := fun t c => calls.length ≤ t ∧ P c)
    (fun c hc _ ht => ⟨ht, hacts c hc⟩) fun _ _ _ hq => by simp [Machine.Pool.idle] at hq

theorem interleaved_callers {py : Platform} {order : Option RowOrder}
    {calls : List (Call × List Oracle)} {acts : List (Machine.Action Call Oracle)} {P : Call → Prop}
    (hcalls : ∀ call ∈ calls, P call.1) (hacts : ∀ c, .invoke c ∈ acts → P c) :
    ∀ e ∈ (interleaved py order calls acts).trace, P e.caller := by
  obtain ⟨new, hnew, hP⟩ := interleaved_split py order calls hacts
  rw [hnew]
  exact List.forall_mem_append.mpr ⟨fun e he => (hP e he).2, sequential_callers hcalls⟩

/-- The attempt an executor is invoked for, with its pathway. -/
def Step.dispatch : Step → Option (String × String)
  | .invokeExecutor p request _ => some (p, request.attemptId)
  | _ => none

theorem Step.dispatch_eq_some {s : Step} {p x : String} (h : s.dispatch = some (p, x)) :
    ∃ request r, s = .invokeExecutor p request r ∧ request.attemptId = x := by
  cases s
  case invokeExecutor q request r =>
    obtain ⟨rfl, rfl⟩ := Prod.mk.inj (Option.some.inj h)
    exact ⟨request, r, rfl, rfl⟩
  all_goals cases h

/-- The invocations of a history, newest first. -/
def dispatches (tr : List Record) : List (String × String) := tr.filterMap fun e => e.step.dispatch

/-- Every invocation is made at some moment of the history. -/
theorem dispatches_split {tr : List Record} {d : String × String} (h : d ∈ dispatches tr) :
    ∃ newer e older, tr = newer ++ e :: older ∧ e.step.dispatch = some d := by
  obtain ⟨e, he, hd⟩ := List.mem_filterMap.mp h
  obtain ⟨newer, older, rfl⟩ := List.append_of_mem he
  exact ⟨newer, e, older, rfl, hd⟩

/-- The row a reconciliation observes is the row of its own attempt. -/
def observesOwn (e : Record) : Bool :=
  match e.step with
  | .observe request rec _ => rec.attemptId = request.attemptId
  | _ => true

def ObservesOwn (tr : List Record) : Prop := ∀ e ∈ tr, observesOwn e = true

instance : DecidablePred ObservesOwn :=
  fun tr => inferInstanceAs (Decidable (∀ e ∈ tr, observesOwn e = true))

section Induction

variable {py : Platform} {order : Option RowOrder} {tr : List Record} {w : World}

/-- A fact about histories that holds at the start and is kept by every justified step. -/
@[elab_as_elim]
theorem Reach.induct {motive : (tr : List Record) → (w : World) → Reach py order tr w → Prop}
    (start : ∀ h, motive [] World.empty h)
    (step : ∀ t c s tr w h, motive tr w h → Justified py c (own t tr) s → s.Answers py order w →
      ∀ h', motive (⟨t, c, w, s⟩ :: tr) (s.effect w) h')
    (h : Reach py order tr w) : motive tr w h := by
  have hrec : ∀ {tr : List Record} {w : World},
      (database py order).Guarded (Justified py) World.empty tr w → ∀ h, motive tr w h := by
    intro tr w h
    induction h with
    | nil => exact start
    | @cons tr w h t c op o hc hg ih =>
      have hw : ((database py order).exec op o w).2 = _ := exec_effect py order op o w
      rw [hw]
      exact step t c _ tr w h (ih h) hg (exec_answers py order op o w)
  exact hrec h h

/-- The history before an entry, and the justification of the entry. -/
theorem Reach.of_append {newer older : List Record} {e : Record}
    (h : Reach py order (newer ++ e :: older) w) :
    Reach py order older e.before ∧ Justified py e.caller (own e.tid older) e.step :=
  Machine.Guarded.of_append h

/-- The response of every entry was true where it was made. -/
theorem Reach.answers {newer older : List Record} {e : Record}
    (h : Reach py order (newer ++ e :: older) w) : e.step.Answers py order e.before := by
  induction newer generalizing w with
  | nil =>
    cases h with
    | cons h t c op o hc hg => exact exec_answers py order op o _
  | cons e' newer ih =>
    cases h with
    | cons h t c op o hc hg => exact ih h

/-- The newest entry. -/
theorem Reach.of_cons {e : Record} (h : Reach py order (e :: tr) w) :
    Reach py order tr e.before ∧ Justified py e.caller (own e.tid tr) e.step ∧
      e.step.Answers py order e.before ∧ w = e.step.effect e.before := by
  cases h with
  | cons h t c op o hc hg => exact ⟨h, hg, exec_answers py order op o _, exec_effect py order op o _⟩

/-- The trace determines the world. -/
theorem Reach.unique {w' : World} (h : Reach py order tr w) (h' : Reach py order tr w') : w' = w := by
  cases tr with
  | nil =>
    cases h
    cases h'
    rfl
  | cons e tr => rw [h.of_cons.2.2.2, h'.of_cons.2.2.2]

/-- Every earlier moment of a history is reached. -/
theorem Reach.suffix {newer older : List Record} (h : Reach py order (newer ++ older) w) :
    ∃ w', Reach py order older w' := by
  induction newer generalizing w with
  | nil => exact ⟨w, h⟩
  | cons e newer ih => exact ih h.of_cons.1

end Induction

/-! ## Events and edges -/

section Events

variable {py : Platform} {policy : RedactionPolicy} {p ty actor : String}
  {payload : List (String × PyValue)} {base own : Own} {e : EvidenceEvent}

/-- The fields of an event that was built. -/
theorem Sealed.fields (h : Sealed py policy p ty actor payload base own e) :
    e.pathwayId = p ∧ e.eventType = ty ∧ e.actor = actor ∧
      policy.redact py (.ofFields payload) = .ok e.payload ∧ verifyEvent py e = true := by
  obtain ⟨h, safe, t, -, hsafe, hseal⟩ := h
  obtain ⟨hp, hty, hactor, hpayload, -, hverify⟩ := sealEvent_ok hseal
  exact ⟨hp, hty, hactor, by rw [hpayload, hsafe], hverify⟩

/-- The hash an event names is the one its call read last. -/
theorem Sealed.previous (h : Sealed py policy p ty actor payload base own e) :
    ∃ t, own = .now t :: .latestEventHash p e.previousHash :: base := by
  obtain ⟨h, safe, t, hown, -, hseal⟩ := h
  obtain ⟨-, -, -, -, hprev, -⟩ := sealEvent_ok hseal
  exact ⟨t, by rw [hown, hprev]⟩

/-- A text the policy does not hide is found in the event. -/
theorem Sealed.text {key s : String} (h : Sealed py policy p ty actor payload base own e)
    (hs : policy.sensitive py (.utf8 key) = false) (hf : payload.lookup key = some (.text s))
    (hnd : (payload.map Prod.fst).Nodup) : e.text? key = some s := by
  rw [EvidenceEvent.text?, RedactionPolicy.redact_text h.fields.2.2.2.1 hs hf hnd]
  rfl

theorem Sealed.absent {key : String} (h : Sealed py policy p ty actor payload base own e)
    (hk : key ∉ payload.map Prod.fst) : e.payload.get? key = none :=
  RedactionPolicy.redact_absent h.fields.2.2.2.1 hk

/-- A final result leads to `COMPLETED` or to `REPAIR_REQUIRED`. -/
theorem ExecutionResult.finalTarget_cases {r : ExecutionResult} {target : PathwayState}
    {reason : PyText} (h : r.finalTarget = some (target, reason)) :
    (target = .completed ∧ r.status = .succeeded ∧ r.verified = true) ∨
      (target = .repairRequired ∧ r.status = .failed) := by
  unfold finalTarget at h
  split_ifs at h with hs hf
  · exact .inl ⟨(Prod.mk.inj (Option.some.inj h)).1.symm, hs⟩
  · exact .inr ⟨(Prod.mk.inj (Option.some.inj h)).1.symm, hf⟩

variable {c : Call} {cur target : PathwayState}

/-- `execute` only asks `transition` for a completion, a repair or an unknown write. -/
theorem Moves.target_cases {request : ExecutionRequest} {actor mover : String}
    (h : Moves py policy p request actor target mover own) :
    target = .completed ∨ target = .repairRequired ∨ target = .writeStatusUnknown := by
  cases h <;> simp

/-- Every commit carries its edge, and the edge is in the table. -/
theorem Commits.edge (h : Commits py c own p cur target e) : target ∈ allowedTransitions cur ∧
    ∃ ty actor more base, Sealed py c.policy p ty actor (edgeFields cur target ++ more) base own e ∧
      ("from" :: "to" :: more.map Prod.fst).Nodup := by
  cases h with
  | requested hc hrun hcheck hseal =>
    exact ⟨ensureTransition_ok.mp hcheck.2.1, _, _, _, _, hseal, by simp⟩
  | moved hc hmove hcheck hseal =>
    exact ⟨ensureTransition_ok.mp hcheck.2.1, _, _, _, _, hseal, by simp⟩
  | started hc h hstart =>
    obtain ⟨d, mid, hcheck, hseal⟩ := hstart
    exact ⟨ensureTransition_ok.mp hcheck.2.1, _, _, _, _, hseal, by simp [ExecutionRequest.fields]⟩
  | late hc h hr hbase hseal =>
    refine ⟨?_, _, _, _, _, hseal, by simp [ExecutionRequest.fields, ExecutionResult.fields]⟩
    rcases ExecutionResult.finalTarget_cases hr with ⟨rfl, -⟩ | ⟨rfl, -⟩ <;> decide
  | reconciled hc h hseal =>
    refine ⟨?_, _, _, _, _, hseal, by simp [ExecutionRequest.fields, ExecutionResult.fields]⟩
    unfold ExecutionResult.reconciledTarget
    split_ifs <;> decide
  | repaired hc hrec hcheck hseal =>
    exact ⟨ensureTransition_ok.mp hcheck.2.1, _, _, _, _, hseal, by simp⟩
  | resumed hc hblank hne hrec hrepair hcheck hseal =>
    exact ⟨ensureTransition_ok.mp hcheck.2.1, _, _, _, _, hseal, by simp⟩
  | closed hc hres hactor hedge hseal =>
    exact ⟨ensureTransition_ok.mp hedge, _, _, _, _, hseal, by simp⟩

theorem Commits.pathwayId (h : Commits py c own p cur target e) : e.pathwayId = p := by
  obtain ⟨-, _, _, _, _, hseal, -⟩ := h.edge
  exact hseal.fields.1

/-- The edge of a commit is in its event, unless the policy hides it. -/
theorem Commits.text (h : Commits py c own p cur target e) (hk : c.policy.KeepsBindings py) :
    e.text? "from" = some cur.value ∧ e.text? "to" = some target.value := by
  obtain ⟨-, _, _, more, _, hseal, hnd⟩ := h.edge
  exact ⟨hseal.text (hk "from" (by decide)) rfl hnd, hseal.text (hk "to" (by decide)) rfl hnd⟩

/-- An appended event names no target. -/
theorem Appends.absent (h : Appends py c own e) : e.payload.get? "to" = none := by
  obtain ⟨_, _, _, _, _, -, -, hto, hseal⟩ := h
  exact hseal.absent hto

theorem Appends.eventType (h : Appends py c own e) : e.eventType ∉ cycleTypes := by
  obtain ⟨_, _, _, _, _, -, hty, -, hseal⟩ := h
  exact hseal.fields.2.1 ▸ hty

end Events

/-! ## One step and one pathway -/

/-- What one step can do to a pathway: create it, change its state with an event, append an event,
or leave it alone. -/
inductive Touches (py : Platform) (c : Call) (own : Own) (w : World) (p : String) : Step → Prop
  | created {d : PathwayDefinition} {fp key : String} {state state' : PathwayState}
      (hd : d.pathwayId = p) (hj : Registers c own d state) (hnew : w.state p = none)
      (hstate : (w.create d.pathwayId ⟨d.toDict, fp, state, key⟩).state p = some state)
      (hdef : (w.create d.pathwayId ⟨d.toDict, fp, state, key⟩).definitionJson p = some d.toDict) :
      Touches py c own w p (.createOrReplayPathway d fp state key (.ok (false, state')))
  | committed {cur target : PathwayState} {e : EvidenceEvent} (hj : Commits py c own p cur target e)
      (hcur : w.state p = some cur) (hstate : (w.commit p target e).state p = some target)
      (hlog : (w.commit p target e).log p = e :: w.log p) :
      Touches py c own w p (.transitionWithEvent p cur target e (.ok ()))
  | appended {e : EvidenceEvent} (hj : Appends py c own e) (hp : e.pathwayId = p)
      (hlog : (w.push e).log p = e :: w.log p) : Touches py c own w p (.appendEvent e (.ok ()))
  | untouched {s : Step} (hstate : (s.effect w).state p = w.state p)
      (hdef : (s.effect w).definitionJson p = w.definitionJson p)
      (hlog : (s.effect w).log p = w.log p) : Touches py c own w p s

/-- **What one justified step does to one pathway.** -/
theorem pathway_cases {py : Platform} {order : Option RowOrder} {c : Call} {own : Own} {s : Step}
    {w : World} (hj : Justified py c own s) (ha : s.Answers py order w) (p : String) :
    Touches py c own w p s := by
  cases s
  case createOrReplayPathway d fp st key r =>
    rcases r with err | ⟨_ | _, st'⟩
    · exact .untouched rfl rfl rfl
    · by_cases hd : d.pathwayId = p
      · have hnew := (World.createOrReplayPathway_new ha.symm).1
        rw [hd] at hnew
        exact .created hd hj hnew (by rw [hd, World.state_create, if_pos rfl])
          (by rw [hd, World.definitionJson_create, if_pos rfl])
      · refine .untouched ?_ ?_ (World.log_create _ _ _ _)
        · exact (World.state_create _ _ _ _).trans (if_neg (Ne.symm hd))
        · exact (World.definitionJson_create _ _ _ _).trans (if_neg (Ne.symm hd))
    · exact .untouched rfl rfl rfl
  case transitionWithEvent q cur target e r =>
    rcases r with err | ⟨⟩
    · exact .untouched rfl rfl rfl
    · have hcur := (World.transitionWithEvent_ok ha.symm).1
      have hid : e.pathwayId = q := hj.pathwayId
      by_cases hq : q = p
      · subst hq
        refine .committed hj hcur ?_ ?_
        · rw [World.state_commit, if_pos rfl, hcur]
          rfl
        · rw [World.log_commit, if_pos hid]
      · refine .untouched ?_ (World.definitionJson_commit _ _ _ _ _) ?_
        · exact (World.state_commit _ _ _ _ _).trans (if_neg (Ne.symm hq))
        · exact (World.log_commit _ _ _ _ _).trans (if_neg (by rw [hid]; exact hq))
  case appendEvent e r =>
    rcases r with err | ⟨⟩
    · exact .untouched rfl rfl rfl
    · by_cases hp : e.pathwayId = p
      · exact .appended hj hp (by rw [World.log_push, if_pos hp])
      · exact .untouched rfl rfl ((World.log_push _ _ _).trans (if_neg hp))
  case begin q r fp res =>
    rcases res with err | ⟨_ | _, rec⟩ <;> exact .untouched rfl rfl rfl
  all_goals exact .untouched rfl rfl rfl

/-- What one step can do to the row of an attempt: insert it, store its outcome, discard it, or
leave it alone. -/
inductive RowTouches (c : Call) (own : Own) (py : Platform) (w : World) (x : String) : Step → Prop
  | begun {p fp : String} {request : ExecutionRequest} {rec : ExecutionAttemptRecord}
      (hj : Begins c own p request) (hx : request.attemptId = x)
      (hnew : w.attempts.lookup x = none)
      (hrow : ((Step.begin p request fp (.ok (false, rec))).effect w).attempts.lookup x =
        some (Ledger.startedRow p request fp)) :
      RowTouches c own py w x (.begin p request fp (.ok (false, rec)))
  | finished {row : AttemptRow} {res : PersistedResult} {rec : ExecutionAttemptRecord}
      (hj : Finishes py c own x res) (hrow : w.attempts.lookup x = some row)
      (hnew : ((Step.finish x res (some rec)).effect w).attempts.lookup x =
        some { row with outcome := some res }) : RowTouches c own py w x (.finish x res (some rec))
  | discarded {row : AttemptRow} {r : Bool} (hj : Discards c own x)
      (hrow : w.attempts.lookup x = some row) (hout : row.outcome = none)
      (hnew : ((Step.discardStarted x r).effect w).attempts.lookup x = none) :
      RowTouches c own py w x (.discardStarted x r)
  | untouched {s : Step} (hrow : (s.effect w).attempts.lookup x = w.attempts.lookup x) :
      RowTouches c own py w x s

/-- **What one justified step does to the row of one attempt.** -/
theorem row_cases {py : Platform} {order : Option RowOrder} {c : Call} {own : Own} {s : Step}
    {w : World} (hj : Justified py c own s) (ha : s.Answers py order w) (x : String) :
    RowTouches c own py w x s := by
  cases s
  case createOrReplayPathway d fp st key r =>
    rcases r with err | ⟨_ | _, st'⟩ <;> exact .untouched rfl
  case transitionWithEvent q cur target e r =>
    rcases r with err | ⟨⟩
    · exact .untouched rfl
    · exact .untouched (congrArg _ (World.attempts_commit _ _ _ _))
  case appendEvent e r => rcases r with err | ⟨⟩ <;> exact .untouched rfl
  case begin p request fp res =>
    rcases res with err | ⟨_ | _, rec⟩
    · exact .untouched rfl
    · obtain ⟨ord, -, hr⟩ := ha
      by_cases hx : request.attemptId = x
      · refine .begun hj hx ?_ ?_
        · exact hx ▸ Ledger.matching_eq_none (Ledger.begin_fresh hr.symm).1
        · exact hx ▸ AList.lookup_insert _
      · exact .untouched (AList.lookup_insert_ne (Ne.symm hx))
    · exact .untouched rfl
  case finish y res r =>
    have hlook : ∀ z, ((Step.finish y res r).effect w).attempts.lookup z = _ :=
      fun z => Ledger.lookup_finish
    by_cases hy : x = y
    · subst hy
      cases hrow : w.attempts.lookup x with
      | none => exact .untouched (by rw [hlook, if_pos rfl, hrow]; rfl)
      | some row =>
        obtain ⟨rec, hrec⟩ := Ledger.finish_of_lookup hrow res
        obtain rfl : r = some rec := Eq.trans ha hrec
        exact .finished hj hrow (by rw [hlook, if_pos rfl, hrow]; rfl)
    · exact .untouched (by rw [hlook, if_neg hy])
  case discardStarted y r =>
    by_cases hy : x = y
    · subst hy
      cases hd : (w.attempts.discardStarted x).1 with
      | false => exact .untouched (congrArg (AList.lookup x) (Ledger.discardStarted_false hd))
      | true =>
        obtain ⟨⟨row, hrow, hout⟩, herase⟩ := Ledger.discardStarted_true hd
        refine .discarded hj hrow hout ?_
        show (w.attempts.discardStarted x).2.lookup x = none
        rw [herase, AList.lookup_erase]
    · exact .untouched (Ledger.lookup_discardStarted_ne hy)
  all_goals exact .untouched rfl

section Definitions

variable {py : Platform} {order : Option RowOrder} {tr : List Record} {w : World} {p : String}

/-- Every stored definition was submitted under its own pathway id. -/
theorem definition_stored (h : Reach py order tr w) {j : Json} (hj : w.definitionJson p = some j) :
    ∃ d : PathwayDefinition, d.pathwayId = p ∧ j = d.toDict := by
  induction h using Reach.induct generalizing j with
  | start => cases hj
  | step t c s tr w h ih hjust ha =>
    cases pathway_cases hjust ha p with
    | @created d _ _ _ _ hd _ _ _ hdef => exact ⟨d, hd, Option.some.inj (hj.symm.trans hdef)⟩
    | committed => exact ih ((World.definitionJson_commit _ _ _ _ _).symm.trans hj)
    | appended => exact ih hj
    | untouched _ hdef _ => exact ih (hdef.symm.trans hj)

/-- A stored definition is never replaced. -/
theorem definition_kept {c : Call} {o : Own} {s : Step} (hj : Justified py c o s)
    (ha : s.Answers py order w) {j : Json} (h : w.definitionJson p = some j) :
    (s.effect w).definitionJson p = some j := by
  cases pathway_cases hj ha p with
  | created hd _ hnew =>
    have := World.state_isSome_iff.mpr (by rw [h]; rfl : (w.definitionJson p).isSome)
    rw [hnew] at this
    cases this
  | committed => exact (World.definitionJson_commit _ _ _ _ _).trans h
  | appended => exact h
  | untouched _ hdef _ => exact hdef.trans h

/-- What `get_definition` returns is the stored definition. -/
theorem getDefinition_stored (h : Reach py order tr w) {d : PathwayDefinition} :
    w.getDefinition py p = .ok d ↔ w.definitionJson p = some d.toDict := by
  unfold World.getDefinition
  refine ⟨fun hread => ?_, fun hj => by simp only [hj, PathwayDefinition.fromDict_toDict]⟩
  cases hj : w.definitionJson p with
  | none => simp only [hj] at hread; cases hread
  | some j =>
    obtain ⟨d', -, rfl⟩ := definition_stored h hj
    simp only [hj, PathwayDefinition.fromDict_toDict] at hread
    cases hread
    rfl

/-- **A definition that was read is the one that is stored.** -/
theorem definition_read (h : Reach py order tr w) {e : Record} (he : e ∈ tr) {d : PathwayDefinition}
    (hs : e.step = .getDefinition p (.ok d)) : w.definitionJson p = some d.toDict := by
  induction h using Reach.induct with
  | start => cases he
  | step t c s tr w h ih hjust ha =>
    rcases List.mem_cons.mp he with rfl | he
    · obtain rfl : s = _ := hs
      exact (getDefinition_stored h).mp ha.symm
    · exact definition_kept hjust ha (ih he)

/-- The definition read by the call itself is the one that is stored. -/
theorem definition_own (h : Reach py order tr w) {t : ℕ} {d : PathwayDefinition}
    (hs : Step.getDefinition p (.ok d) ∈ own t tr) : w.definitionJson p = some d.toDict := by
  obtain ⟨e, he, -, hstep⟩ := mem_own.mp hs
  exact definition_read h he hstep

/-- A definition read before an event was built is the stored one. -/
theorem read_stored (h : Reach py order tr w) {t : ℕ} {policy : RedactionPolicy}
    {ty actor : String} {payload : List (String × PyValue)} {event : EvidenceEvent}
    {d : PathwayDefinition} {base : Own} (hread : Step.getDefinition p (.ok d) ∈ base)
    (hseal : Sealed py policy p ty actor payload base (own t tr) event) :
    w.definitionJson p = some d.toDict := by
  obtain ⟨u, hown⟩ := hseal.previous
  refine definition_own h (t := t) ?_
  rw [hown]
  exact List.mem_cons_of_mem _ (List.mem_cons_of_mem _ hread)

/-- An edge was checked against the stored definition. -/
theorem checked_stored (h : Reach py order tr w) {t : ℕ} {policy : RedactionPolicy}
    {ty actor actor' : String} {payload : List (String × PyValue)} {event : EvidenceEvent}
    {d : PathwayDefinition} {cur target : PathwayState} {base mid : Own}
    (hcheck : Checked p d cur target actor base mid)
    (hseal : Sealed py policy p ty actor' payload mid (own t tr) event) :
    w.definitionJson p = some d.toDict :=
  read_stored h (by rw [hcheck.1]; exact List.mem_cons_self) hseal

/-- What is stored for a pathway was submitted to `register`. -/
theorem submitted_stored (h : Reach py order tr w) {d : PathwayDefinition}
    (hsubmit : ∀ e ∈ tr, ∀ d' key, e.caller.method = .register d' key → d' = d)
    (hp : (w.state d.pathwayId).isSome) : w.definitionJson d.pathwayId = some d.toDict := by
  obtain ⟨j, hj⟩ := Option.isSome_iff_exists.mp (World.state_isSome_iff.mp hp)
  rw [hj]
  induction h using Reach.induct generalizing j with
  | start => cases hj
  | step t c s tr w h ih hjust ha h' =>
    have hold : ∀ j, w.definitionJson d.pathwayId = some j → some j = some d.toDict := fun j hj =>
      ih (fun e he => hsubmit e (List.mem_cons_of_mem _ he))
        (World.state_isSome_iff.mpr (by rw [hj]; rfl)) j hj
    cases pathway_cases hjust ha d.pathwayId with
    | @created d' _ _ _ _ _ hreg _ _ hdef =>
      obtain ⟨key, _, _, _, _, hc, -⟩ := hreg
      obtain rfl := hsubmit _ List.mem_cons_self d' key hc
      exact hj.symm.trans hdef
    | committed => exact hold j ((World.definitionJson_commit _ _ _ _ _).symm.trans hj)
    | appended => exact hold j hj
    | untouched _ hdef _ => exact hold j (hdef.symm.trans hj)

/-- The definition of a pathway that was only submitted in one form. -/
theorem getDefinition_interleaved {calls : List (Call × List Oracle)} {acts : List (Machine.Action Call Oracle)}
    {d : PathwayDefinition} (hcalls : ∀ call ∈ calls, ∀ d' key, call.1.method = .register d' key → d' = d)
    (hacts : ∀ c, .invoke c ∈ acts → ∀ d' key, c.method = .register d' key → d' = d)
    (hp : ((interleaved py order calls acts).world.state d.pathwayId).isSome) :
    (interleaved py order calls acts).world.getDefinition py d.pathwayId = .ok d := by
  have hreach := interleaved_reach py order calls acts
  refine (getDefinition_stored hreach).mpr (submitted_stored hreach ?_ hp)
  exact interleaved_callers (P := fun c => ∀ d' key, c.method = .register d' key → d' = d) hcalls hacts

theorem getDefinition_submitted {calls : List (Call × List Oracle)} {d : PathwayDefinition}
    (hcalls : ∀ call ∈ calls, ∀ d' key, call.1.method = .register d' key → d' = d)
    (hp : ((sequential py order calls).world.state d.pathwayId).isSome) :
    (sequential py order calls).world.getDefinition py d.pathwayId = .ok d :=
  @getDefinition_interleaved py order calls [] d hcalls (by simp) hp

/-- A pathway that is not registered has no events. -/
theorem log_unregistered (h : Reach py order tr w) (hp : w.state p = none) : w.log p = [] := by
  induction h using Reach.induct with
  | start => rfl
  | step t c s tr w h ih hj ha h' =>
    cases pathway_cases hj ha p with
    | created hd hreg hnew hstate => exact absurd (hstate.symm.trans hp) (by simp)
    | committed hcommit hcur hstate => exact absurd (hstate.symm.trans hp) (by simp)
    | appended happ hid =>
      have hin := (World.appendEvent_ok ha.symm).2
      rw [hid, show w.state p = none from hp] at hin
      cases hin
    | untouched hstate hdef hlog => exact hlog.trans (ih (hstate.symm.trans hp))

/-- The stored definition determines the submitted one. -/
theorem PathwayDefinition.toDict_injective (py : Platform) {d d' : PathwayDefinition}
    (h : d.toDict = d'.toDict) : d = d' := by
  have := d.fromDict_toDict py
  rw [h, d'.fromDict_toDict py] at this
  exact (Except.ok.inj this).symm

end Definitions

end Rpr
