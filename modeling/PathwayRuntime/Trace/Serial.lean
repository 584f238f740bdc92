import PathwayRuntime.Trace.Reach

/-!
# Calls made one after another

* `Alone`: a stretch of steps made by one call with nobody else in between; each step then tells the
  world the next one is made in.
* **`Reach.alone`**: in a serial history the newest steps of the newest call are such a stretch.
* `serial_induct`: induction over serial histories, with the fact at hand for every earlier moment.
-/

set_option autoImplicit false

namespace Rpr

open Resume

/-- The steps, newest first, lead from `w₀` to `w`, and each answer was true where it was made. -/
def Alone (py : Platform) (order : Option RowOrder) (w₀ : World) : Own → World → Prop
  | [], w => w = w₀
  | s :: steps, w => ∃ w', Alone py order w₀ steps w' ∧ s.Answers py order w' ∧ w = s.effect w'

section Alone

variable {py : Platform} {order : Option RowOrder} {w₀ w : World}

@[simp] theorem alone_nil : Alone py order w₀ [] w ↔ w = w₀ := Iff.rfl

theorem alone_append {a b : Own} (h : Alone py order w₀ (a ++ b) w) :
    ∃ w', Alone py order w₀ b w' ∧ Alone py order w' a w := by
  induction a generalizing w with
  | nil => exact ⟨w, h, rfl⟩
  | cons s a ih =>
    obtain ⟨w', h', ha, rfl⟩ := h
    obtain ⟨w'', hb, ha'⟩ := ih h'
    exact ⟨w'', hb, w', ha', ha, rfl⟩

/-- Quiet steps leave the world as it was. -/
theorem Alone.quiet {steps : Own} (h : Alone py order w₀ steps w) (hq : ∀ s ∈ steps, s.quiet) :
    w = w₀ := by
  induction steps generalizing w with
  | nil => exact h
  | cons s steps ih =>
    obtain ⟨w', h', -, rfl⟩ := h
    rw [Step.effect_quiet (hq s List.mem_cons_self)]
    exact ih h' fun s' hs' => hq s' (List.mem_cons_of_mem _ hs')

/-- Quiet steps at the end can be forgotten. -/
theorem Alone.over {base steps : Own} (h : Alone py order w₀ steps w) (hq : QuietOver base steps) :
    Alone py order w₀ base w := by
  obtain ⟨extra, rfl, hquiet⟩ := hq
  obtain ⟨w', hbase, hextra⟩ := alone_append h
  rwa [hextra.quiet hquiet]

/-- The answers of quiet steps are true where the steps began. -/
theorem Alone.answers {steps : Own} (h : Alone py order w₀ steps w) (hq : ∀ s ∈ steps, s.quiet) :
    ∀ s ∈ steps, s.Answers py order w₀ := by
  induction steps generalizing w with
  | nil => exact fun s hs => absurd hs List.not_mem_nil
  | cons s steps ih =>
    obtain ⟨w', h', ha, -⟩ := h
    have hq' : ∀ s ∈ steps, s.quiet := fun s' hs' => hq s' (List.mem_cons_of_mem _ hs')
    refine List.forall_mem_cons.mpr ⟨?_, ih h' hq'⟩
    rwa [h'.quiet hq'] at ha

end Alone

/-- A history of calls made one after another, none of them after call `t`. -/
structure SerialReach (py : Platform) (order : Option RowOrder) (t : ℕ) (tr : List Record) (w : World) :
    Prop where
  reach : Reach py order tr w
  serial : Serial tr
  last : ∀ e ∈ tr, e.tid ≤ t

section Serial

variable {py : Platform} {order : Option RowOrder} {t : ℕ} {tr : List Record} {w : World}

/-- **The newest steps of the newest call were made alone**, from a moment of the history. -/
theorem SerialReach.alone (h : SerialReach py order t tr w) {extra base : Own}
    (hown : own t tr = extra ++ base) : ∃ newer older w₀, tr = newer ++ older ∧
      newer.map Entry.step = extra ∧ own t older = base ∧ SerialReach py order t older w₀ ∧
      Alone py order w₀ extra w := by
  induction extra generalizing tr w with
  | nil => exact ⟨[], tr, w, rfl, rfl, hown, h, rfl⟩
  | cons s extra ih =>
    obtain ⟨hreach, hserial, hlast⟩ := h
    cases tr with
    | nil => cases hown
    | cons e tr =>
      obtain ⟨hbefore, -, ha, rfl⟩ := hreach.of_cons
      obtain ⟨hle, hserial⟩ := List.pairwise_cons.mp hserial
      have htid : e.tid = t := by
        by_contra hne
        have hlt : e.tid < t := lt_of_le_of_ne (hlast e List.mem_cons_self) hne
        rw [own_cons_ne hne, own_eq_nil fun e' he' => ((hle e' he').trans_lt hlt).ne] at hown
        cases hown
      subst htid
      rw [own_cons_self] at hown
      obtain ⟨rfl, htail⟩ := List.cons.inj hown
      obtain ⟨newer, older, w₀, rfl, hsteps, hbase, hold, halone⟩ :=
        ih ⟨hbefore, hserial, fun e' he' => hle e' he'⟩ htail
      exact ⟨e :: newer, older, w₀, rfl, by rw [List.map_cons, hsteps], hbase, hold, e.before, halone,
        ha, rfl⟩

/-- Quiet steps of the newest call can be forgotten. -/
theorem SerialReach.quiet (h : SerialReach py order t tr w) {base : Own}
    (hq : QuietOver base (own t tr)) : ∃ newer older, tr = newer ++ older ∧
      (∀ e ∈ newer, e.step.quiet) ∧ own t older = base ∧ SerialReach py order t older w := by
  obtain ⟨extra, hown, hquiet⟩ := hq
  obtain ⟨newer, older, w₀, rfl, rfl, hbase, hold, halone⟩ := h.alone hown
  rw [halone.quiet hquiet]
  exact ⟨newer, older, rfl, fun e he => hquiet _ (List.mem_map_of_mem he), hbase, hold⟩

/-- A fact about every moment of a history, the last one included. -/
def Before (py : Platform) (order : Option RowOrder) (motive : List Record → World → Prop)
    (tr : List Record) : Prop :=
  ∀ newer older w', tr = newer ++ older → Reach py order older w' → motive older w'

/-- Induction over serial histories: at every step the fact is known of all earlier moments. -/
theorem serial_induct {motive : List Record → World → Prop} (start : motive [] World.empty)
    (step : ∀ t c s tr w, SerialReach py order t tr w → Before py order motive tr →
      Justified py c (own t tr) s → s.Answers py order w → motive (⟨t, c, w, s⟩ :: tr) (s.effect w))
    (h : Reach py order tr w) (hs : Serial tr) : motive tr w := by
  induction hn : tr.length using Nat.strong_induction_on generalizing tr w with
  | _ n ih =>
    cases tr with
    | nil =>
      cases h
      exact start
    | cons e tr =>
      obtain ⟨hbefore, hj, ha, rfl⟩ := h.of_cons
      obtain ⟨hle, hs⟩ := List.pairwise_cons.mp hs
      refine step e.tid e.caller e.step tr e.before ⟨hbefore, hs, hle⟩ ?_ hj ha
      rintro newer older w' rfl hold
      refine ih older.length ?_ hold (List.pairwise_append.mp hs).2.1 rfl
      rw [← hn, List.length_cons, List.length_append]
      omega

theorem dispatches_append (a b : List Record) : dispatches (a ++ b) = dispatches a ++ dispatches b :=
  List.filterMap_append

theorem dispatches_cons (e : Record) (tr : List Record) :
    dispatches (e :: tr) = e.step.dispatch.toList ++ dispatches tr := by
  unfold dispatches
  rw [List.filterMap_cons]
  cases e.step.dispatch <;> rfl

/-- No step of a stretch invoked the executor. -/
theorem dispatches_eq_nil {newer : List Record} (h : ∀ e ∈ newer, e.step.dispatch = none) :
    dispatches newer = [] :=
  List.filterMap_eq_nil_iff.mpr h

theorem Step.dispatch_quiet {s : Step} (h : s.quiet) : s.dispatch = none := by
  cases s
  case invokeExecutor => exact absurd h Bool.false_ne_true
  all_goals rfl

/-- The call made all its steps alone, from a moment of the history. -/
theorem SerialReach.whole (h : SerialReach py order t tr w) : ∃ newer older w₀, tr = newer ++ older ∧
    newer.map Entry.step = own t tr ∧ Reach py order older w₀ ∧ Alone py order w₀ (own t tr) w := by
  obtain ⟨newer, older, w₀, htr, hsteps, -, hold, halone⟩ := h.alone (List.append_nil _).symm
  exact ⟨newer, older, w₀, htr, hsteps, hold.reach, halone⟩

/-- A call whose steps so far invoked nobody began in a history with the same invocations. -/
theorem SerialReach.start (h : SerialReach py order t tr w)
    (hsilent : ∀ s ∈ own t tr, s.dispatch = none) : ∃ newer older w₀, tr = newer ++ older ∧
      Reach py order older w₀ ∧ Alone py order w₀ (own t tr) w ∧ dispatches tr = dispatches older := by
  obtain ⟨newer, older, w₀, htr, hsteps, hold, halone⟩ := h.whole
  refine ⟨newer, older, w₀, htr, hold, halone, ?_⟩
  rw [htr, dispatches_append, dispatches_eq_nil, List.nil_append]
  exact fun e he => hsilent _ (hsteps ▸ List.mem_map_of_mem he)

/-- The newest call of a serial history is `t`, made by `c`. -/
structure Running (py : Platform) (order : Option RowOrder) (t : ℕ) (c : Call) (h : History) :
    Prop where
  serial : SerialReach py order t h.trace h.world
  caller : ∀ e ∈ h.trace, e.tid = t → e.caller = c

/-- Before the first step of a new call. -/
theorem running_sequential (py : Platform) (order : Option RowOrder)
    (calls : List (Call × List Oracle)) (c : Call) :
    Running py order calls.length c (sequential py order calls) := by
  obtain ⟨hreach, hserial, hlt⟩ := sequential_reach py order calls
  exact ⟨⟨hreach, hserial, fun e he => (hlt e he).le⟩, fun e he ht => absurd ht (hlt e he).ne⟩

theorem Running.advance {c : Call} {h : History} (hrun : Running py order t c h) (op : Op) (o : Oracle)
    (hj : Justified py c (own t h.trace) (label op (exec py order op o h.world).1)) :
    Running py order t c ((database py order).advance t c op o h).2 := by
  obtain ⟨⟨hreach, hserial, hlast⟩, hcaller⟩ := hrun
  refine ⟨⟨hreach.cons t c op o hcaller hj, ?_, ?_⟩, ?_⟩
  · exact List.pairwise_cons.mpr ⟨hlast, hserial⟩
  · exact List.forall_mem_cons.mpr ⟨le_rfl, hlast⟩
  · exact List.forall_mem_cons.mpr ⟨fun _ => rfl, hcaller⟩

/-- The history of one more call. -/
theorem sequential_append (py : Platform) (order : Option RowOrder)
    (calls : List (Call × List Oracle)) (c : Call) (os : List Oracle) :
    sequential py order (calls ++ [(c, os)]) = ((database py order).run calls.length c
      (c.body py) os (sequential py order calls)).2 := by
  rw [sequential, Machine.sessions_append, Nat.zero_add]
  rfl

/-- What every step of the newest call keeps, the call keeps. -/
theorem Running.induct {c : Call} {os : List Oracle} {calls : List (Call × List Oracle)}
    {motive : World → Prop} (start : motive (sequential py order calls).world)
    (step : ∀ tr w s, SerialReach py order calls.length tr w → motive w →
      Justified py c (own calls.length tr) s → s.Answers py order w → motive (s.effect w)) :
    motive (sequential py order (calls ++ [(c, os)])).world := by
  have htraced : Prog.Traced label (Justified py c) (fun _ _ => True) (c.body py)
      (own calls.length (sequential py order calls).trace) := by
    rw [own_eq_nil fun e he => ((sequential_reach py order calls).2.2 e he).ne]
    exact c.body_traced py
  rw [sequential_append]
  refine (Machine.run_induct (M := database py order) htraced
    (motive := fun h => Running py order calls.length c h ∧ motive h.world)
    ⟨running_sequential py order calls c, start⟩ fun h op o hm hj => ?_).2
  refine ⟨hm.1.advance op o hj, ?_⟩
  show motive (exec py order op o h.world).2
  rw [exec_effect]
  exact step _ _ _ hm.1.serial hm.2 hj (exec_answers py order op o h.world)

end Serial

end Rpr
