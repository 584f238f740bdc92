import PathwayRuntime.Trace.Binding

/-!
# At most one invocation an entry into `RUNNING`

Executions interleave operation by operation, after calls made one after another.

* `Holds x own`: the call inserted the row of `x` and has not discarded it since. While no call
  restarts a started row (`Orderly.restart`), a row that is held stays and has one holder.
* `attempts_held`: then no attempt is dispatched twice, in any interleaving of any calls.
* **`entry_dispatches_once`**: in orderly interleavings of executions each entry into `RUNNING` is
  followed, until the next one, by at most one invocation, for the attempt the entry names.
* `entry_dispatches_twice`: two executions of one attempt that restart its row.
-/

set_option autoImplicit false

namespace Rpr

open Resume

/-! ## The condition -/

/-- The call read this pathway as `RUNNING`. -/
def Step.readsRunning (p : String) : Step → Bool
  | .getState q (.ok .running) => q = p
  | _ => false

/-- A call that just found a started row does not find its pathway `APPROVED`, and a call that just
inserted a row only finds its pathway `RUNNING` when it had found it `RUNNING` before. -/
def Step.orderly : Step → Own → Bool
  | .getState p (.ok .approved), .begin q _ _ (.ok (true, rec)) :: _ => p ≠ q ∨ rec.outcome.isSome
  | .getState p (.ok .running), .begin q _ _ (.ok (false, _)) :: rest =>
    p ≠ q ∨ rest.any (Step.readsRunning p)
  | _, _ => true

def orderlySteps : List Record → Bool
  | [] => true
  | e :: older => e.step.orderly (own e.tid older) && orderlySteps older

/-- Every step of the history is orderly. -/
def Orderly (tr : List Record) : Prop := orderlySteps tr = true

instance : DecidablePred Orderly := fun tr => inferInstanceAs (Decidable (orderlySteps tr = true))

theorem Orderly.head {tr : List Record} {e : Record} (h : Orderly (e :: tr)) :
    e.step.orderly (own e.tid tr) = true ∧ Orderly tr :=
  Bool.and_eq_true_iff.mp h

theorem Orderly.of_append {newer tr : List Record} (h : Orderly (newer ++ tr)) : Orderly tr := by
  induction newer with
  | nil => exact h
  | cons e newer ih => exact ih h.head.2

theorem Orderly.restart {newer older : List Record} {e : Record} {p fp : String}
    {request : ExecutionRequest} {rec : ExecutionAttemptRecord} {rest : Own}
    (h : Orderly (newer ++ e :: older)) (hs : e.step = .getState p (.ok .approved))
    (hown : own e.tid older = .begin p request fp (.ok (true, rec)) :: rest) : rec.outcome ≠ none := by
  have := h.of_append.head.1
  rw [hs, hown] at this
  simpa [Step.orderly, Option.isSome_iff_ne_none] using this

theorem Orderly.entry {newer older : List Record} {e : Record} {p fp : String}
    {request : ExecutionRequest} {rec : ExecutionAttemptRecord} {rest : Own}
    (h : Orderly (newer ++ e :: older)) (hs : e.step = .getState p (.ok .running))
    (hown : own e.tid older = .begin p request fp (.ok (false, rec)) :: rest) :
    ∃ s ∈ rest, s.readsRunning p := by
  have := h.of_append.head.1
  rw [hs, hown] at this
  simpa [Step.orderly] using this

/-! ## Holding a row -/

/-- The call inserted the row of `x` and has not discarded it. -/
def Holds (x : String) (own : Own) : Prop :=
  ∃ extra p request fp rec base, own = extra ++ .begin p request fp (.ok (false, rec)) :: base ∧
    request.attemptId = x ∧ ∀ s ∈ extra, ∀ y r, s ≠ .discardStarted y r

theorem Holds.begun {p fp : String} {request : ExecutionRequest} {rec : ExecutionAttemptRecord}
    {base : Own} : Holds request.attemptId (.begin p request fp (.ok (false, rec)) :: base) :=
  ⟨[], p, request, fp, rec, base, rfl, rfl, by simp⟩

theorem Holds.cons {x : String} {own : Own} (h : Holds x own) {s : Step}
    (hs : ∀ y r, s ≠ .discardStarted y r) : Holds x (s :: own) := by
  obtain ⟨extra, p, request, fp, rec, base, rfl, hx, hextra⟩ := h
  exact ⟨s :: extra, p, request, fp, rec, base, rfl, hx, List.forall_mem_cons.mpr ⟨hs, hextra⟩⟩

theorem Holds.over {x : String} {base own : Own} (h : Holds x base) (hq : QuietOver base own) :
    Holds x own := by
  obtain ⟨extra, rfl, hquiet⟩ := hq
  induction extra with
  | nil => exact h
  | cons s extra ih =>
    refine (ih fun s' hs' => hquiet s' (List.mem_cons_of_mem _ hs')).cons fun y r hs => ?_
    have := hquiet s List.mem_cons_self
    rw [hs] at this
    cases this

/-- A call that holds a row has just inserted it, or held it before and did not discard it. -/
theorem Holds.cases_cons {x : String} {s : Step} {own : Own} (h : Holds x (s :: own)) :
    (∃ p request fp rec, s = .begin p request fp (.ok (false, rec)) ∧ request.attemptId = x) ∨
      (Holds x own ∧ ∀ y r, s ≠ .discardStarted y r) := by
  obtain ⟨extra, p, request, fp, rec, base, hown, hx, hextra⟩ := h
  cases extra with
  | nil => exact .inl ⟨p, request, fp, rec, (List.cons.inj hown).1, hx⟩
  | cons s' extra =>
    obtain ⟨rfl, rfl⟩ := List.cons.inj hown
    exact .inr ⟨⟨extra, p, request, fp, rec, base, rfl, hx,
      fun s hs => hextra s (List.mem_cons_of_mem _ hs)⟩, hextra s List.mem_cons_self⟩

section Orderly

variable {py : Platform} {order : Option RowOrder} {t : ℕ} {c : Call} {s : Step} {tr : List Record}
  {w : World} {p x : String} {request : ExecutionRequest} {actor : String}

/-- In an orderly history a begun attempt was inserted by the call itself, once. -/
theorem Begun.inserted {base : Own} (extra : Own) (h : Begun p request actor base) (ho : Orderly tr)
    (hown : own t tr = extra ++ base) : ∃ fp rec adm,
      base = .begin p request fp (.ok (false, rec)) :: adm ∧ Admitted p request actor adm := by
  cases h with
  | fresh h => exact ⟨_, _, _, rfl, h⟩
  | @restarted fp fp' rec rec' adm _ h hrec hrecorded =>
    obtain ⟨event, hash, u, rfl⟩ := hrecorded
    have hread : own t tr = (extra ++ [.appendEvent event (.ok ()), .now u, .latestEventHash p hash,
        .begin p request fp' (.ok (false, rec')), .discardStarted request.attemptId true]) ++
        .getState p (.ok .approved) :: .begin p request fp (.ok (true, rec)) :: adm := by
      rw [hown]
      simp
    obtain ⟨newer, e, older, rfl, htid, hstep, -, holder⟩ := own_split _ hread
    exact absurd hrec (ho.restart hstep (htid ▸ holder))

theorem Begun.holds {base : Own} (extra : Own) (h : Begun p request actor base) (ho : Orderly tr)
    (hown : own t tr = extra ++ base) : Holds request.attemptId base := by
  obtain ⟨fp, rec, adm, rfl, -⟩ := h.inserted extra ho hown
  exact .begun

/-- In an orderly history a call only discards a row it holds. -/
theorem Discards.holds (h : Discards c (own t tr) x) (ho : Orderly tr) : Holds x (own t tr) := by
  generalize hown : own t tr = o at h
  cases h with
  | @restart p actor fp request rec base hc hadm hrec hstep =>
    subst hstep
    obtain ⟨newer, e, older, rfl, htid, hread, -, holder⟩ := own_split [] hown
    exact absurd hrec (ho.restart hread (htid ▸ holder))
  | @abandoned p actor request st base mid hc hbegun hmid hs hstep =>
    subst hstep
    have hover : QuietOver base (.getState p (.ok st) :: mid) := hmid.cons rfl
    obtain ⟨extra, hextra, -⟩ := id hover
    exact (hbegun.holds extra ho (hown.trans hextra)).over hover
  | reconcile hc hadm hstep =>
    subst hstep
    exact .begun

/-- A call that discards has invoked nobody. -/
theorem Discards.silent {o : Own} (h : Discards c o x) : ∀ s ∈ o, s.dispatch = none := by
  cases h with
  | restart hc hadm hrec ho =>
    subst ho
    simpa [Step.dispatch] using hadm.silent
  | abandoned hc hbegun hmid hs ho =>
    subst ho
    exact List.forall_mem_cons.mpr ⟨rfl, hmid.silent hbegun.silent⟩
  | reconcile hc hadm ho =>
    subst ho
    obtain ⟨-, -⟩ := hadm
    simp [Step.dispatch]

/-- In an orderly history a call that invokes the executor holds the row of its attempt. -/
theorem Cleared.holds {policy : RedactionPolicy} (h : Cleared py policy p request actor (own t tr))
    (ho : Orderly tr) : Holds request.attemptId (own t tr) := by
  generalize hown : own t tr = o at h
  cases h with
  | @started cur event base mid hbegun hstart =>
    obtain ⟨extra, rfl, hq⟩ := id hstart.quiet
    refine Holds.cons ?_ (by simp)
    exact (hbegun.holds (_ :: extra) ho hown).over hstart.quiet
  | running hbegun =>
    exact (hbegun.holds [_] ho hown).cons (by simp)

/-- **A held row is in the ledger, and has one holder.** -/
theorem held_of_reach (h : Reach py order tr w) (ho : Orderly tr) :
    (∀ t x, Holds x (own t tr) → ∃ row, w.attempts.lookup x = some row) ∧
      ∀ t t' x, Holds x (own t tr) → Holds x (own t' tr) → t = t' := by
  induction h using Reach.induct with
  | start => exact ⟨fun t x ⟨extra, _, _, _, _, _, hown, _⟩ => by simp at hown,
      fun t t' x ⟨extra, _, _, _, _, _, hown, _⟩ => by simp at hown⟩
  | step t₀ c s tr w h ih hj ha h' =>
    obtain ⟨hrow, hone⟩ := ih ho.head.2
    have hself : own t₀ (⟨t₀, c, w, s⟩ :: tr) = s :: own t₀ tr := own_cons_self _ _
    have hother : ∀ t, t₀ ≠ t → own t (⟨t₀, c, w, s⟩ :: tr) = own t tr := fun t ht => own_cons_ne ht _
    -- A row that was held before the step and is not discarded by its holder stays.
    have hkept : ∀ t x, Holds x (own t tr) → (t = t₀ → ∀ y r, s ≠ .discardStarted y r) →
        ∃ row, (s.effect w).attempts.lookup x = some row := by
      intro t x hold hnot
      obtain ⟨row, hx⟩ := hrow t x hold
      cases row_cases hj ha x with
      | begun _ _ hnew => exact absurd (hnew.symm.trans hx) (by simp)
      | finished _ _ hnew => exact ⟨_, hnew⟩
      | discarded hdis =>
        exact absurd rfl (hnot (hone t t₀ x hold (hdis.holds ho.head.2)) _ _)
      | untouched hsame => exact ⟨row, hsame.trans hx⟩
    -- Only an absent row is inserted.
    have hnew : ∀ p request fp rec, s = .begin p request fp (.ok (false, rec)) →
        ∀ t, ¬ Holds request.attemptId (own t tr) := by
      rintro p request fp rec rfl t hold
      obtain ⟨row, hx⟩ := hrow t _ hold
      obtain ⟨ord, -, hr⟩ := ha
      exact absurd ((Ledger.matching_eq_none (Ledger.begin_fresh hr.symm).1).symm.trans hx) (by simp)
    refine ⟨fun t x hold => ?_, fun t t' x hold hold' => ?_⟩
    · by_cases ht : t₀ = t
      · subst ht
        rw [hself] at hold
        rcases hold.cases_cons with ⟨p, request, fp, rec, rfl, rfl⟩ | ⟨hold, hnot⟩
        · exact ⟨_, AList.lookup_insert _⟩
        · exact hkept t₀ x hold fun _ => hnot
      · rw [hother t ht] at hold
        exact hkept t x hold fun h => absurd h.symm ht
    · have hcases : ∀ t, Holds x (own t (⟨t₀, c, w, s⟩ :: tr)) → Holds x (own t tr) ∨ (t = t₀ ∧
          ∃ p request fp rec, s = .begin p request fp (.ok (false, rec)) ∧ request.attemptId = x) := by
        intro t hold
        by_cases ht : t₀ = t
        · subst ht
          rw [hself] at hold
          exact hold.cases_cons.symm.imp And.left fun h => ⟨rfl, h⟩
        · exact .inl (hother t ht ▸ hold)
      rcases hcases t hold with h₁ | ⟨rfl, p, request, fp, rec, hs, rfl⟩ <;>
        rcases hcases t' hold' with h₂ | ⟨rfl, p', request', fp', rec', hs', hx'⟩
      · exact hone t t' x h₁ h₂
      · exact absurd (hx' ▸ h₁) (hnew _ _ _ _ hs' t)
      · exact absurd h₂ (hnew _ _ _ _ hs t')
      · rfl

/-- Every dispatched attempt is held by the call that dispatched it, and none was dispatched twice. -/
theorem attempts_held (h : Reach py order tr w) (ho : Orderly tr) :
    (∀ d ∈ dispatches tr, ∃ t, Holds d.2 (own t tr) ∧ ∃ s ∈ own t tr, s.dispatch = some d) ∧
      ((dispatches tr).map Prod.snd).Nodup := by
  induction h using Reach.induct with
  | start => exact ⟨fun d hd => absurd hd List.not_mem_nil, List.nodup_nil⟩
  | step t₀ c s tr w h ih hj ha h' =>
    have ho' : Orderly tr := ho.head.2
    obtain ⟨hheld, hnodup⟩ := ih ho'
    have hself : own t₀ (⟨t₀, c, w, s⟩ :: tr) = s :: own t₀ tr := own_cons_self _ _
    have hother : ∀ t, t₀ ≠ t → own t (⟨t₀, c, w, s⟩ :: tr) = own t tr := fun t ht => own_cons_ne ht _
    have hkept : ∀ d ∈ dispatches tr, ∃ t, Holds d.2 (own t (⟨t₀, c, w, s⟩ :: tr)) ∧
        ∃ s' ∈ own t (⟨t₀, c, w, s⟩ :: tr), s'.dispatch = some d := by
      intro d hd
      obtain ⟨t, hold, s', hs', hdis⟩ := hheld d hd
      refine ⟨t, ?_⟩
      by_cases ht : t₀ = t
      · subst ht
        rw [hself]
        refine ⟨hold.cons fun y r hs => ?_, s', List.mem_cons_of_mem _ hs', hdis⟩
        -- A call that invoked the executor discards nothing.
        subst hs
        rw [Discards.silent hj s' hs'] at hdis
        cases hdis
      · rw [hother t ht]
        exact ⟨hold, s', hs', hdis⟩
    cases hdis : s.dispatch with
    | none =>
      have hsame : dispatches (⟨t₀, c, w, s⟩ :: tr) = dispatches tr := by
        rw [dispatches_cons, hdis]
        rfl
      rw [hsame]
      exact ⟨hkept, hnodup⟩
    | some d =>
      have hnew : dispatches (⟨t₀, c, w, s⟩ :: tr) = d :: dispatches tr := by
        rw [dispatches_cons, hdis]
        rfl
      obtain ⟨p, x⟩ := d
      obtain ⟨request, r, rfl, rfl⟩ := Step.dispatch_eq_some hdis
      obtain ⟨actor, hc, hcleared⟩ := hj
      have hold := hcleared.holds ho'
      rw [hnew]
      refine ⟨List.forall_mem_cons.mpr ⟨⟨t₀, ?_, ?_⟩, hkept⟩, List.nodup_cons.mpr ⟨fun hmem => ?_, hnodup⟩⟩
      · rw [hself]
        exact hold.cons (by simp)
      · rw [hself]
        exact ⟨_, List.mem_cons_self, rfl⟩
      · obtain ⟨d, hd, hx⟩ := List.mem_map.mp hmem
        obtain ⟨t, hold', s', hs', hdis'⟩ := hheld d hd
        obtain rfl := (held_of_reach h ho').2 t t₀ d.2 hold' (hx ▸ hold)
        rw [hcleared.silent s' hs'] at hdis'
        cases hdis'

end Orderly

/-! ## Executions among themselves -/

/-- The call is an execution. -/
def Call.executes (c : Call) : Prop := ∃ p request actor, c.method = .execute p request actor

/-- Between two steps of one call all other steps are made by executions. -/
def AmongExecutions (tr : List Record) : Prop :=
  ∀ newer e mid e' older, tr = newer ++ e :: (mid ++ e' :: older) → e.tid = e'.tid →
    ∀ m ∈ mid, m.tid = e.tid ∨ m.caller.executes

/-- Executions interleaved after calls made one after another are among themselves. -/
theorem interleaved_among (py : Platform) (order : Option RowOrder) (calls : List (Call × List Oracle))
    {acts : List (Machine.Action Call Oracle)} (hacts : ∀ c, .invoke c ∈ acts → c.executes) :
    AmongExecutions (interleaved py order calls acts).trace := by
  obtain ⟨new, hnew, hexec⟩ := interleaved_split py order calls hacts
  obtain ⟨-, hserial, hlt⟩ := sequential_reach py order calls
  -- The steps of the first calls are in order, and older than all others.
  have hpair : (interleaved py order calls acts).trace.Pairwise
      fun a b => a.tid < calls.length → b.tid ≤ a.tid := by
    rw [hnew]
    refine List.pairwise_append.mpr ⟨?_, ?_, fun a ha b _ hlt => ?_⟩
    · exact List.pairwise_of_forall_mem_list fun a ha _ _ hlt => absurd (hexec a ha).1 (by omega)
    · refine List.Pairwise.imp ?_ hserial
      exact fun h _ => h
    · exact absurd (hexec a ha).1 (by omega)
  intro newer e mid e' older htr heq m hm
  have hmem : m ∈ new ++ (sequential py order calls).trace := by
    rw [← hnew, htr]
    simp [hm]
  rcases List.mem_append.mp hmem with hin | hin
  · exact .inr (hexec m hin).2
  · rw [htr] at hpair
    obtain ⟨he, htail⟩ := List.pairwise_cons.mp (List.pairwise_append.mp hpair).2.1
    have hm' := (List.pairwise_append.mp htail).2.2 m hm e' List.mem_cons_self (hlt m hin)
    have hm_lt := hlt m hin
    have he' := he m (List.mem_append_left _ hm) (by omega)
    exact .inl (by omega)

/-- The states executions leave a running pathway in. -/
def executedStates : List PathwayState := [.running, .completed, .writeStatusUnknown, .repairRequired]

/-- The pathway is in an executed state, and its log is bound to the attempt `a`, if to any. -/
structure BoundTo (w : World) (p : String) (a : Except PyError String) : Prop where
  state : ∃ s ∈ executedStates, w.state p = some s
  active : activeAttempt (w.log p) = a

section Named

variable {py : Platform} {order : Option RowOrder} {t : ℕ} {c : Call} {s : Step} {tr : List Record}
  {w : World} {p x : String} {own : Own} {a : Except PyError String}

/-- An execution moves a pathway to `RUNNING` or to a result. -/
theorem Commits.executed_target {cur target : PathwayState} {e : EvidenceEvent}
    (h : Commits py c own p cur target e) (hc : c.executes) : target ∈ executedStates := by
  obtain ⟨q, request, actor, hm⟩ := hc
  cases h with
  | requested hreq =>
    rw [hm] at hreq
    exact hreq.elim
  | moved _ hmove => rcases hmove.target_cases with h | h | h <;> rw [h] <;> decide
  | started => decide
  | late _ _ hr => rcases ExecutionResult.finalTarget_cases hr with ⟨h, -⟩ | ⟨h, -⟩ <;> rw [h] <;> decide
  | reconciled hc' | repaired hc' | resumed hc' | closed hc' => exact absurd (hm.symm.trans hc') (by simp)

/-- No executed state has an edge back into `RUNNING`. -/
theorem executedStates_running {st : PathwayState} (h : st ∈ executedStates) :
    .running ∉ allowedTransitions st := by
  revert st
  decide

/-- An execution does not bind a pathway anew while it is in an executed state. -/
theorem BoundTo.step (h : BoundTo w p a) (hj : Justified py c own s) (ha : s.Answers py order w)
    (hk : c.policy.KeepsBindings py) (hc : c.executes) : BoundTo (s.effect w) p a := by
  obtain ⟨st, hst, hw⟩ := h.state
  refine ⟨?_, (activeAttempt_kept hj ha hk fun cur e hs => ?_).trans h.active⟩
  · cases pathway_cases hj ha p with
    | created _ _ hnew => exact absurd (hnew.symm.trans hw) (by simp)
    | committed hcommit _ hstate => exact ⟨_, hcommit.executed_target hc, hstate⟩
    | appended => exact ⟨st, hst, hw⟩
    | untouched hstate => exact ⟨st, hst, hstate.trans hw⟩
  · subst hs
    obtain rfl := Option.some.inj ((World.transitionWithEvent_ok ha.symm).1.symm.trans hw)
    exact executedStates_running hst (Commits.edge hj).1

/-- The binding survives any stretch of steps of executions, quiet steps and insertions of rows. -/
theorem BoundTo.kept {newer older : List Record} (h : Reach py order (newer ++ older) w)
    (hk : ∀ e ∈ newer, e.caller.policy.KeepsBindings py)
    (hmid : ∀ m ∈ newer, m.caller.executes ∨ m.step.quiet ∨ ∃ q r fp b, m.step = .begin q r fp b)
    (hb : ∀ w', Reach py order older w' → BoundTo w' p a) : BoundTo w p a := by
  induction newer generalizing w with
  | nil => exact hb w h
  | cons e newer ih =>
    obtain ⟨hbefore, hj, ha, rfl⟩ := h.of_cons
    have hprev := ih hbefore (fun e he => hk e (List.mem_cons_of_mem _ he))
      fun m hm => hmid m (List.mem_cons_of_mem _ hm)
    rcases hmid e List.mem_cons_self with hc | hq | ⟨q, r, fp, b, hs⟩
    · exact hprev.step hj ha (hk e List.mem_cons_self) hc
    · rwa [Step.effect_quiet hq]
    · rw [hs]
      rcases b with err | ⟨_ | _, rec⟩ <;> exact ⟨hprev.state, hprev.active⟩

/-- Among executions, the steps that are not the call's own are those of executions. -/
theorem executes_of_own_nil {t : ℕ} {mid : List Record} (hnone : Resume.own t mid = []) {m : Record} (hm : m ∈ mid)
    (h : m.tid = t ∨ m.caller.executes) : m.caller.executes := by
  refine h.resolve_left fun hself => ?_
  have hown : m.step ∈ Resume.own t mid := mem_own.mpr ⟨m, hm, hself, rfl⟩
  rw [hnone] at hown
  exact absurd hown List.not_mem_nil

/-- **An invocation among executions is made for the attempt its pathway is bound to.** -/
theorem dispatch_named {e : Record} (h : Reach py order (e :: tr) w) (ho : Orderly tr)
    (hamong : AmongExecutions (e :: tr)) (hk : ∀ m ∈ e :: tr, m.caller.policy.KeepsBindings py)
    (hs : e.step.dispatch = some (p, x)) : BoundTo e.before p (.ok x) := by
  obtain ⟨hbefore, hj, -, -⟩ := h.of_cons
  obtain ⟨request, r, hstep, rfl⟩ := Step.dispatch_eq_some hs
  rw [hstep] at hj
  obtain ⟨actor, hc, hcleared⟩ := hj
  have hkt : ∀ m ∈ tr, m.caller.policy.KeepsBindings py := fun m hm => hk m (List.mem_cons_of_mem _ hm)
  generalize hown : Resume.own e.tid tr = o at hcleared
  cases hcleared with
  | @started cur event base mid hbegun hstart =>
    -- The call itself made the pathway `RUNNING`; since then only other executions made steps.
    obtain ⟨newer, e', older, rfl, htid, hs', hnone, holder⟩ := own_split [] hown
    refine BoundTo.kept hbefore (fun m hm => hkt m (List.mem_append_left _ hm)) (fun m hm => ?_)
      fun w' hw' => ?_
    · exact .inl (executes_of_own_nil hnone hm (hamong [] e newer e' older rfl htid.symm m hm))
    · obtain ⟨-, -, ha, rfl⟩ := hw'.of_cons
      rw [hs'] at ha ⊢
      have hcur := (World.transitionWithEvent_ok ha.symm).1
      obtain ⟨d, mid', -, hseal⟩ := hstart
      have hkc := hk e List.mem_cons_self
      refine ⟨⟨.running, by decide, ?_⟩, ?_⟩
      · show (e'.before.commit p .running event).state p = _
        rw [World.state_commit, if_pos rfl, hcur]
        rfl
      · show activeAttempt ((e'.before.commit p .running event).log p) = _
        rw [World.log_commit, if_pos hseal.fields.1]
        exact activeAttempt_enter (hseal.started_enters hkc.starts) (hseal.started_binding hkc.starts)
  | @running own hbegun =>
    obtain ⟨fp, rec, adm, rfl, hadm⟩ := hbegun.inserted [_] ho hown
    have hread : ∃ s ∈ adm, s.readsRunning p := by
      obtain ⟨newer, e', older, rfl, htid, hs', -, holder⟩ := own_split [] hown
      exact ho.entry hs' (htid ▸ holder)
    cases hadm with
    | @idle d st hauth hne =>
      obtain ⟨r, hr, hrun⟩ := hread
      simp only [List.mem_cons, List.not_mem_nil, or_false] at hr
      rcases hr with rfl | rfl
      · cases st <;> first | exact absurd rfl hne | cases hrun
      · cases hrun
    | @running d events hauth hbound =>
      -- The pathway was `RUNNING` and bound to the attempt before the row was inserted.
      obtain ⟨newer, v, older, rfl, htid, hsv, hnewer, holder⟩ :=
        own_split [_, _] hown
      obtain ⟨mid, g, oldest, rfl, hgid, hsg, hmid, -⟩ := own_split [] holder
      have hother : ∀ m ∈ newer ++ v :: mid, m.tid = e.tid ∨ m.caller.executes :=
        hamong [] e (newer ++ v :: mid) g oldest (by simp) hgid.symm
      obtain ⟨hv, -⟩ := hbefore.of_append
      have hva := hbefore.answers
      have hga := hv.answers
      rw [hsv] at hva
      rw [hsg] at hga
      have hread : BoundTo v.before p (activeAttempt (g.before.log p)) := by
        refine BoundTo.kept hv (fun m hm => hkt m (by simp [hm])) (fun m hm => ?_) fun w' hw' => ?_
        · exact .inl (executes_of_own_nil hmid hm (hother m (by simp [hm])))
        · obtain ⟨-, -, -, rfl⟩ := hw'.of_cons
          rw [hsg]
          exact ⟨⟨.running, by decide, World.getState_ok.mp hga.symm⟩, rfl⟩
      have hactive : activeAttempt (v.before.log p) = .ok request.attemptId := by
        rwa [show events = (v.before.log p).reverse from hva, List.reverse_reverse] at hbound
      refine BoundTo.kept hbefore (fun m hm => hkt m (by simp [hm])) (fun m hm => ?_) fun w' hw' => ?_
      · rcases hother m (by simp [hm]) with hself | hexec
        · have : m.step ∈ Resume.own e.tid newer := mem_own.mpr ⟨m, hm, hself, rfl⟩
          rw [hnewer] at this
          simp only [List.mem_cons, List.not_mem_nil, or_false] at this
          rcases this with hs | hs
          · exact .inr (.inl (by rw [hs]; rfl))
          · exact .inr (.inr ⟨_, _, _, _, hs⟩)
        · exact .inl hexec
      · obtain ⟨-, -, -, rfl⟩ := hw'.of_cons
        rw [hsv]
        exact ⟨hread.state, hactive⟩

end Named

/-! ## One invocation an entry -/

/-- The event with which the step commits the pathway into `RUNNING`. -/
def Step.entered (p : String) : Step → Option EvidenceEvent
  | .transitionWithEvent q _ .running event (.ok ()) => if q = p then some event else none
  | _ => none

theorem Step.entered_eq_some {s : Step} {p : String} {event : EvidenceEvent} :
    s.entered p = some event ↔ ∃ cur, s = .transitionWithEvent p cur .running event (.ok ()) := by
  constructor
  · intro h
    unfold entered at h
    split at h
    · split_ifs at h with hq
      obtain rfl := Option.some.inj h
      exact ⟨_, by rw [hq]⟩
    · cases h
  · rintro ⟨cur, rfl⟩
    simp [entered]

/-- After each entry of a pathway into `RUNNING`, until its next one, the executor is invoked at most
once for the pathway, and only for the attempt the entry names. -/
def EntryDispatchesOnce (tr : List Record) : Prop :=
  ∀ newer seg x older p event, tr = newer ++ (seg ++ x :: older) → x.step.entered p = some event →
    (∀ m ∈ seg, m.step.entered p = none) →
    ((dispatches seg).filter fun d => d.1 = p).length ≤ 1 ∧
      ∀ d ∈ dispatches seg, d.1 = p → event.binding = some d.2

/-- Until the next entry the log stays bound to the attempt the entry names. -/
theorem active_of_entry {py : Platform} {order : Option RowOrder} {seg older : List Record}
    {x : Record} {w : World} {p : String} {event : EvidenceEvent}
    (h : Reach py order (seg ++ x :: older) w)
    (hk : ∀ m ∈ seg ++ x :: older, m.caller.policy.KeepsBindings py) (hx : x.step.entered p = some event)
    (hseg : ∀ m ∈ seg, m.step.entered p = none) {a : String} :
    activeAttempt (w.log p) = .ok a ↔ event.binding = some a := by
  induction seg generalizing w with
  | nil =>
    obtain ⟨hbefore, hj, ha, rfl⟩ := h.of_cons
    obtain ⟨cur, hs⟩ := Step.entered_eq_some.mp hx
    have hkx := hk x (by simp)
    rw [hs] at hj ⊢
    have hcommit : Commits py x.caller (own x.tid older) p cur .running event := hj
    show activeAttempt ((x.before.commit p .running event).log p) = _ ↔ _
    rw [World.log_commit, if_pos hcommit.pathwayId]
    exact activeAttempt_head (by rw [hcommit.entersRunning hkx]; rfl)
  | cons m seg ih =>
    obtain ⟨hbefore, hj, ha, rfl⟩ := h.of_cons
    rw [activeAttempt_kept hj ha (hk m (by simp)) fun cur e hs => by
      have := hseg m List.mem_cons_self
      rw [Step.entered_eq_some.mpr ⟨cur, hs⟩] at this
      cases this]
    exact ih hbefore (fun m' hm' => hk m' (List.mem_cons_of_mem _ hm'))
      fun m' hm' => hseg m' (List.mem_cons_of_mem _ hm')

theorem AmongExecutions.of_append {newer tr : List Record} (h : AmongExecutions (newer ++ tr)) :
    AmongExecutions tr :=
  fun n e mid e' older htr => h (newer ++ n) e mid e' older (by rw [htr]; simp)

/-- **In an orderly history of executions among themselves each entry dispatches once.** -/
theorem entryDispatchesOnce_of_reach {py : Platform} {order : Option RowOrder} {tr : List Record}
    {w : World} (h : Reach py order tr w) (ho : Orderly tr) (hamong : AmongExecutions tr)
    (hk : ∀ m ∈ tr, m.caller.policy.KeepsBindings py) : EntryDispatchesOnce tr := by
  rintro newer seg x older p event rfl hx hseg
  have hnamed : ∀ d ∈ dispatches seg, d.1 = p → event.binding = some d.2 := by
    rintro ⟨_, a⟩ hd rfl
    obtain ⟨seg₁, e, seg₂, rfl, hdis⟩ := dispatches_split hd
    have htr : newer ++ ((seg₁ ++ e :: seg₂) ++ x :: older) =
        (newer ++ seg₁) ++ e :: (seg₂ ++ x :: older) := by simp
    rw [htr] at h ho hamong hk
    obtain ⟨w', hw'⟩ := h.suffix
    have hactive := (dispatch_named hw' ho.of_append.head.2 hamong.of_append
      (fun m hm => hk m (List.mem_append_right _ hm)) hdis).active
    exact (active_of_entry hw'.of_cons.1
      (fun m hm => hk m (List.mem_append_right _ (List.mem_cons_of_mem _ hm))) hx
      fun m hm => hseg m (by simp [hm])).mp hactive
  refine ⟨?_, hnamed⟩
  -- All invocations of the stretch are for one attempt, and no attempt is dispatched twice.
  have hnodup : (((dispatches seg).filter fun d => d.1 = p).map Prod.snd).Nodup := by
    refine List.Nodup.sublist (List.Sublist.map _ ?_) (attempts_held h ho).2
    rw [dispatches_append, dispatches_append]
    exact (List.filter_sublist.trans (List.sublist_append_left _ _)).trans
      (List.sublist_append_right _ _)
  have hsub : ((dispatches seg).filter fun d => d.1 = p).map Prod.snd ⊆ event.binding.toList := by
    intro a ha
    obtain ⟨d, hd, rfl⟩ := List.mem_map.mp ha
    obtain ⟨hd, hp⟩ := List.mem_filter.mp hd
    rw [hnamed d hd (by simpa using hp)]
    exact List.mem_singleton_self _
  have := (List.subperm_of_subset hnodup hsub).length_le
  rw [List.length_map] at this
  exact this.trans (by cases event.binding <;> simp)

/-- **One dispatch per authorization under concurrency**, in every interleaving of executions, after
calls made one after another, that is orderly and whose redaction policies keep the binding keys. -/
theorem entry_dispatches_once (py : Platform) (order : Option RowOrder)
    (calls : List (Call × List Oracle)) (acts : List (Machine.Action Call Oracle))
    (hcalls : ∀ call ∈ calls, call.1.policy.KeepsBindings py)
    (hacts : ∀ c, .invoke c ∈ acts → c.executes ∧ c.policy.KeepsBindings py)
    (ho : Orderly (interleaved py order calls acts).trace) :
    EntryDispatchesOnce (interleaved py order calls acts).trace :=
  entryDispatchesOnce_of_reach (interleaved_reach py order calls acts) ho
    (interleaved_among py order calls fun c hc => (hacts c hc).1)
    (interleaved_callers (P := fun c => c.policy.KeepsBindings py) hcalls fun c hc => (hacts c hc).2)

/-- An execution of the attempt `a`. -/
def executeA : Call := ⟨.default, .execute "p" requestA "executor"⟩

/-- Two executions of the attempt `a`: the calls take turns, each for so many operations. -/
def twoExecutions (turns : List (ℕ × ℕ)) : List (Machine.Action Call Oracle) :=
  [.invoke executeA, .invoke executeA] ++ turns.flatMap fun turn => List.replicate turn.2 (.step turn.1 {})

/-- The second call begins once the first has made the pathway `RUNNING`. -/
def orderlyTurns : List (ℕ × ℕ) := [(1, 9), (2, 5), (1, 1)]

theorem entry_dispatches_once_orderly :
    EntryDispatchesOnce (interleaved .sample none approvedCalls (twoExecutions orderlyTurns)).trace := by
  refine entry_dispatches_once .sample none _ _ ?_ ?_ (by decide +kernel)
  · simp [approvedCalls, Method.answered, RedactionPolicy.default_keepsBindings]
  · intro c hc
    have : c = executeA := by
      simpa [twoExecutions, orderlyTurns, List.flatMap] using hc
    rw [this]
    exact ⟨⟨_, _, _, rfl⟩, RedactionPolicy.default_keepsBindings .sample⟩

/-- The second call finds the row of the first, restarts it, and waits. Both are then cleared by the
same commit into `RUNNING`. -/
def restartTurns : List (ℕ × ℕ) := [(1, 3), (2, 9), (1, 6), (2, 2), (1, 1)]

/-- **Two executions of one attempt dispatch it twice after one entry into `RUNNING`.** -/
theorem entry_dispatches_twice : completed .sample none approvedCalls = true ∧
    (∀ t, .crash t ∉ twoExecutions restartTurns) ∧
    ¬ EntryDispatchesOnce (interleaved .sample none approvedCalls (twoExecutions restartTurns)).trace := by
  have hrun : completed .sample none approvedCalls = true ∧
      (fun tr : List Record => (tr.drop 3).head?.any (fun x => (x.step.entered "p").isSome) = true ∧
        ((dispatches (tr.take 3)).filter fun d => d.1 = "p").length = 2 ∧
        (tr.take 3).all (fun m => (m.step.entered "p").isNone) = true)
      (interleaved .sample none approvedCalls (twoExecutions restartTurns)).trace := by
    decide +kernel
  obtain ⟨hcompleted, hentry, hcount, hseg⟩ := hrun
  refine ⟨hcompleted, by simp [twoExecutions, restartTurns, List.flatMap], fun h => ?_⟩
  generalize (interleaved .sample none approvedCalls (twoExecutions restartTurns)).trace = tr
    at h hentry hcount hseg
  cases hd : tr.drop 3 with
  | nil => simp [hd] at hentry
  | cons x older =>
    rw [hd] at hentry
    obtain ⟨event, hx⟩ := Option.isSome_iff_exists.mp (by simpa using hentry)
    have := (h [] (tr.take 3) x older "p" event (by rw [← hd]; simp) hx fun m hm => by
      simpa using List.all_eq_true.mp hseg m hm).1
    omega

end Rpr
