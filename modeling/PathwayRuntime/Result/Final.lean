import PathwayRuntime.Trace.Binding

/-!
# Final outcomes

* `KeepsFinal`: a step keeps every final outcome that is stored.
* `Unraced`: between a call's `begin` and its storing of an outcome, nobody stores another final
  outcome for the attempt.
* **`final_kept`**: in every unraced interleaving a final outcome is written once.
* `final_overwritten`: an execution that is still under way overwrites the classification of a
  reconciliation.
-/

set_option autoImplicit false

namespace Rpr

open Resume

/-- The stored outcome of an attempt. -/
def World.stored (w : World) (x : String) : Option PersistedResult :=
  (w.attempts.lookup x).bind AttemptRow.outcome

/-- The outcome is final: it is not an unknown write. -/
def PersistedResult.settled (res : PersistedResult) : Bool := res.status ≠ .writeStatusUnknown

/-- The step of the entry keeps every final outcome. -/
def KeepsFinal (e : Record) : Prop :=
  ∀ x res, e.before.stored x = some res → res.settled →
    (e.step.effect e.before).stored x = some res

def Step.begins : Step → Bool
  | .begin .. => true
  | _ => false

def Step.stores : Step → Bool
  | .finish .. => true
  | _ => false

/-- The final outcome a step stores in the row of the attempt. -/
def Step.settles (x : String) : Step → Option PersistedResult
  | .finish y res (some _) => if y = x ∧ res.settled then some res else none
  | _ => none

/-- The steps since the latest `begin` of call `t`, newest first. -/
def sinceBegin (t : ℕ) (tr : List Record) : List Record :=
  tr.takeWhile fun m => !(m.tid = t && m.step.begins)

/-- Between a call's `begin` and its storing of an outcome, nobody stores another final outcome for
the attempt. -/
def Unraced (tr : List Record) : Prop :=
  ∀ newer e older x res rec, tr = newer ++ e :: older → e.step = .finish x res (some rec) →
    ∀ m ∈ sinceBegin e.tid older, ∀ res', m.step.settles x = some res' → res' = res

/-! ## Before an outcome is stored -/

section Begin

variable {py : Platform} {order : Option RowOrder} {tr : List Record} {w : World} {p x : String}
  {request : ExecutionRequest} {actor : String} {policy : RedactionPolicy} {own : Own}

/-- The call began the attempt in its latest `begin`, with this answer. -/
def BeganBy (x : String) (own : Own) (replayed : Bool) (rec : ExecutionAttemptRecord) : Prop :=
  ∃ extra p request fp base, own = extra ++ .begin p request fp (.ok (replayed, rec)) :: base ∧
    request.attemptId = x ∧ ∀ s ∈ extra, s.begins = false

theorem BeganBy.append {replayed : Bool} {rec : ExecutionAttemptRecord} {base : Own}
    (h : BeganBy x base replayed rec) (extra : Own) (hextra : ∀ s ∈ extra, s.begins = false) :
    BeganBy x (extra ++ base) replayed rec := by
  obtain ⟨extra', p, request, fp, base, rfl, hx, hextra'⟩ := h
  exact ⟨extra ++ extra', p, request, fp, base, by simp, hx,
    List.forall_mem_append.mpr ⟨hextra, hextra'⟩⟩

theorem Begun.began (h : Begun p request actor own) :
    ∃ rec, BeganBy request.attemptId own false rec := by
  cases h with
  | fresh h => exact ⟨_, [], p, request, _, _, rfl, rfl, by simp⟩
  | restarted h hrec hown =>
    obtain ⟨event, hash, u, rfl⟩ := hown
    exact ⟨_, [_, _, _], p, request, _, _, rfl, rfl, by simp [Step.begins]⟩

theorem Cleared.began (h : Cleared py policy p request actor own) :
    ∃ rec, BeganBy request.attemptId own false rec := by
  cases h with
  | @started cur event base mid hbegun hstart =>
    obtain ⟨rec, hbegan⟩ := hbegun.began
    obtain ⟨d, _, ⟨rfl, -, -⟩, hash, safe, u, rfl, -, -⟩ := hstart
    exact ⟨rec, hbegan.append [_, _, _, _, _, _] (by simp [Step.begins])⟩
  | running hbegun =>
    obtain ⟨rec, hbegan⟩ := hbegun.began
    exact ⟨rec, hbegan.append [_] (by simp [Step.begins])⟩

/-- A call that stores an outcome began its attempt as a fresh one, or found it without a final
outcome and observed it. -/
theorem Finishes.began {c : Call} {res : PersistedResult} (h : Finishes py c own x res) :
    (∃ rec, BeganBy x own false rec) ∨ ∃ rec, BeganBy x own true rec ∧
      (∀ stored, rec.outcome = some stored → stored.settled = false) ∧
      ∃ request o, Step.observe request rec o ∈ own ∧ request.attemptId = x := by
  cases h with
  | executed hc hdis =>
    obtain ⟨hcleared⟩ := hdis
    obtain ⟨rec, hbegan⟩ := hcleared.began
    exact .inl ⟨rec, hbegan.append [_] (by simp [Step.begins])⟩
  | reconciled hc hobs =>
    obtain ⟨hadm, hrec⟩ := hobs
    refine .inr ⟨_, ⟨[_], _, _, _, _, rfl, rfl, by simp [Step.begins]⟩, fun stored hs => ?_,
      _, _, List.mem_cons_self, rfl⟩
    simp [PersistedResult.settled, hrec stored hs]

/-- The steps of the history since the call's latest `begin`. -/
theorem sinceBegin_eq {t : ℕ} {mid older : List Record} {b : Record} (ht : b.tid = t)
    (hb : b.step.begins = true) (hmid : ∀ s ∈ Resume.own t mid, s.begins = false) :
    sinceBegin t (mid ++ b :: older) = mid := by
  unfold sinceBegin
  rw [List.takeWhile_append_of_pos fun m hm => ?_, List.takeWhile_cons_of_neg (by simp [ht, hb]),
    List.append_nil]
  by_cases hmt : m.tid = t
  · simp [hmt, hmid m.step (mem_own.mpr ⟨m, hm, hmt, rfl⟩)]
  · simp [hmt]

end Begin

/-! ## Storing an outcome -/

section Store

variable {py : Platform} {order : Option RowOrder} {tr : List Record} {w : World} {x : String}

theorem World.stored_eq_some {res : PersistedResult} : w.stored x = some res ↔
    ∃ row, w.attempts.lookup x = some row ∧ row.outcome = some res := by
  simp [World.stored, Option.bind_eq_some_iff]

/-- A final outcome that was not there after `b` was stored since. -/
theorem settled_since {mid older : List Record} {b : Record} {res : PersistedResult}
    (h : Reach py order (mid ++ b :: older) w)
    (hbefore : ∀ res', (b.step.effect b.before).stored x = some res' → res'.settled = false)
    (hnow : w.stored x = some res) (hset : res.settled = true) :
    ∃ m ∈ mid, m.step.settles x = some res := by
  induction mid generalizing w with
  | nil =>
    obtain ⟨-, -, -, rfl⟩ := h.of_cons
    rw [hbefore res hnow] at hset
    cases hset
  | cons m mid ih =>
    obtain ⟨hm, hj, ha, rfl⟩ := h.of_cons
    obtain ⟨row, hrow, hout⟩ := World.stored_eq_some.mp hnow
    obtain ⟨t, c, w', s⟩ := m
    cases row_cases hj ha x with
    | begun _ _ _ hnew =>
      obtain rfl := Option.some.inj (hnew.symm.trans hrow)
      cases hout
    | @finished row' res' rec _ _ hnew =>
      obtain rfl := Option.some.inj (hnew.symm.trans hrow)
      obtain rfl := Option.some.inj hout
      exact ⟨_, List.mem_cons_self, by simp [Step.settles, hset]⟩
    | discarded _ _ _ hnew => exact absurd (hnew.symm.trans hrow) (by simp)
    | untouched hsame =>
      obtain ⟨m, hm, hs⟩ := ih hm (World.stored_eq_some.mpr ⟨row, hsame.symm.trans hrow, hout⟩)
      exact ⟨m, List.mem_cons_of_mem _ hm, hs⟩

/-- Right after its latest `begin` the attempt of a call that will store an outcome has no final
one. -/
theorem BeganBy.unsettled {p fp : String} {request : ExecutionRequest} {replayed : Bool}
    {rec : ExecutionAttemptRecord} {w : World}
    (ha : (Step.begin p request fp (.ok (replayed, rec))).Answers py order w)
    (hreplayed : replayed = true → rec.attemptId = request.attemptId ∧
      ∀ stored, rec.outcome = some stored → stored.settled = false) {res : PersistedResult}
    (h : ((Step.begin p request fp (.ok (replayed, rec))).effect w).stored request.attemptId =
      some res) : res.settled = false := by
  obtain ⟨row, hrow, hout⟩ := World.stored_eq_some.mp h
  cases replayed with
  | false =>
    obtain rfl := Option.some.inj ((AList.lookup_insert _).symm.trans hrow)
    cases hout
  | true =>
    obtain ⟨hown, hunsettled⟩ := hreplayed rfl
    have hfound := (replayed_row ha).1
    rw [hown] at hfound
    obtain rfl := Option.some.inj (hfound.symm.trans hrow)
    exact hunsettled res hout

/-- A call only stores an outcome over a final one that was stored since its latest `begin`. -/
theorem Finishes.settles {t : ℕ} {c : Call} {res res' : PersistedResult}
    (h : Reach py order tr w) (hj : Finishes py c (own t tr) x res) (hobserve : ObservesOwn tr)
    (hnow : w.stored x = some res') (hset : res'.settled = true) :
    ∃ m ∈ sinceBegin t tr, m.step.settles x = some res' := by
  have hbegan : ∃ replayed rec, BeganBy x (own t tr) replayed rec ∧ (replayed = true →
      rec.attemptId = x ∧ ∀ stored, rec.outcome = some stored → stored.settled = false) := by
    rcases hj.began with ⟨rec, hb⟩ | ⟨rec, hb, hrec, request, o, hmem, rfl⟩
    · exact ⟨false, rec, hb, fun h => absurd h (by decide)⟩
    · obtain ⟨e, he, -, hs⟩ := mem_own.mp hmem
      have := hobserve e he
      rw [observesOwn, hs] at this
      exact ⟨true, rec, hb, fun _ => ⟨of_decide_eq_true this, hrec⟩⟩
  obtain ⟨replayed, rec, ⟨extra, p, request, fp, base, hown, rfl, hextra⟩, hrec⟩ := hbegan
  obtain ⟨mid, b, older, rfl, hbt, hbs, rfl, -⟩ := own_split extra hown
  rw [sinceBegin_eq hbt (by rw [hbs]; rfl) hextra]
  refine settled_since h (fun res hres => ?_) hnow hset
  have ha := h.answers
  rw [hbs] at ha hres
  exact BeganBy.unsettled ha hrec hres

end Store

/-- **A final outcome is written once**, in every interleaving whose outcomes are stored unraced:
no step changes the outcome of an attempt that is succeeded or failed. -/
theorem final_kept (py : Platform) (order : Option RowOrder) (calls : List (Call × List Oracle))
    (acts : List (Machine.Action Call Oracle))
    (hun : Unraced (interleaved py order calls acts).trace)
    (hobserve : ObservesOwn (interleaved py order calls acts).trace) :
    ∀ e ∈ (interleaved py order calls acts).trace, KeepsFinal e := by
  intro e he x res hnow hset
  have hreach := interleaved_reach py order calls acts
  obtain ⟨newer, older, htr⟩ := List.append_of_mem he
  rw [htr] at hreach hun hobserve
  obtain ⟨hbefore, hj⟩ := hreach.of_append
  have ha := hreach.answers
  obtain ⟨row, hrow, hout⟩ := World.stored_eq_some.mp hnow
  obtain ⟨t, c, w, s⟩ := e
  cases row_cases hj ha x with
  | begun _ _ hnew => exact absurd (hnew.symm.trans hrow) (by simp)
  | @finished row' res' rec hfin _ hnew =>
    -- The outcome there was stored since the call began, and unraced: it is the same one.
    obtain ⟨m, hm, hsettles⟩ := Finishes.settles hbefore hfin
      (fun m hm => hobserve m (by simp [hm])) hnow hset
    obtain rfl := hun newer _ older x res' rec rfl rfl m hm res hsettles
    exact World.stored_eq_some.mpr ⟨_, hnew, rfl⟩
  | discarded _ hrow' hnone =>
    obtain rfl := Option.some.inj (hrow'.symm.trans hrow)
    exact absurd (hnone.symm.trans hout) (by simp)
  | untouched hsame => exact World.stored_eq_some.mpr ⟨row, hsame.trans hrow, hout⟩

/-- An execution of `a` is cleared to dispatch; a second one finds its row and leaves the pathway
unknown; a reconciliation classifies the attempt as failed. -/
def reconciledMeanwhile : List (Machine.Action Call Oracle) :=
  .invoke ⟨.default, .execute "p" requestA "executor"⟩ :: List.replicate 9 (.step 1 {}) ++
  .invoke ⟨.default, .execute "p" requestA "executor"⟩ :: List.replicate 13 (.step 2 {}) ++
  .invoke ⟨.default, .reconcile "p" requestA "auditor"⟩ ::
    List.replicate 9 (.step 3 { observation := .returned ⟨.verifiedNotApplied, [], none⟩ })

theorem final_kept_reconciled :
    ((interleaved .sample none approvedCalls reconciledMeanwhile).world.stored "a").map
        PersistedResult.status = some .failed ∧
      ∀ e ∈ (interleaved .sample none approvedCalls reconciledMeanwhile).trace, KeepsFinal e := by
  have hrun : ((interleaved .sample none approvedCalls reconciledMeanwhile).world.stored "a").map
        PersistedResult.status = some .failed ∧
      ((interleaved .sample none approvedCalls reconciledMeanwhile).trace.filter
        fun e => e.step.stores).length = 1 ∧
      ObservesOwn (interleaved .sample none approvedCalls reconciledMeanwhile).trace := by
    decide +kernel
  obtain ⟨hfailed, hone, hobserve⟩ := hrun
  refine ⟨hfailed, ?_⟩
  refine final_kept .sample none approvedCalls reconciledMeanwhile ?_ hobserve
  -- Only one outcome is stored in the whole run.
  intro newer e older x res r htr hs m hm res' hset
  have hold : m ∈ older.filter fun e => e.step.stores := by
    refine List.mem_filter.mpr ⟨List.takeWhile_sublist _ |>.subset hm, ?_⟩
    cases hstep : m.step
    case finish => rfl
    all_goals simp [hstep, Step.settles] at hset
  have hpos := List.length_pos_of_mem hold
  rw [htr, List.filter_append, List.filter_cons_of_pos (by rw [hs]; rfl), List.length_append,
    List.length_cons] at hone
  exact absurd (Nat.eq_zero_of_add_eq_zero_left (Nat.succ.inj hone)) hpos.ne'

/-- **Without the condition a final outcome is overwritten**: the first execution ends after the
reconciliation and stores its own outcome. No call crashes. -/
theorem final_overwritten : ¬ ∀ (py : Platform) (order : Option RowOrder)
    (calls : List (Call × List Oracle)) (acts : List (Machine.Action Call Oracle)),
    ∀ e ∈ (interleaved py order calls acts).trace, KeepsFinal e := by
  intro h
  have hrun : ∃ e ∈ (interleaved .sample none approvedCalls (reconciledMeanwhile ++
      List.replicate 2 (.step 1 { executor := .returned ⟨.succeeded, [], some ⟨true, [], none⟩, none⟩ }))).trace,
      (e.before.stored "a").map PersistedResult.status = some .failed ∧
      ((e.step.effect e.before).stored "a").map PersistedResult.status = some .succeeded := by
    decide +kernel
  obtain ⟨e, he, hbefore, hafter⟩ := hrun
  obtain ⟨res, hres, hstatus⟩ := Option.map_eq_some_iff.mp hbefore
  rw [h _ _ _ _ e he "a" res hres (by simp [PersistedResult.settled, hstatus])] at hafter
  simp [hstatus] at hafter

end Rpr
