import Mathlib.Logic.Relation
import PathwayRuntime.Trace.Reach

/-!
# What a history keeps

* `RprFormal.allowed`: the transition relation of the formal model the repository ships.
* `World.Grows w w'`: what `w` stores is stored in `w'`. Events only follow events, a pathway keeps its registration and
  moves along the formal relation, and an attempt that has an outcome keeps its identity and has an outcome.
* `Step.grows`: one justified step; `Reach.grows`: the rest of a history.
* **`interleaved_grows`**: every interleaving of calls, continued in any way.
-/

set_option autoImplicit false

namespace Rpr

open Resume

/-! ## The formal model -/

namespace RprFormal

/-- `RprFormal.allowed`. -/
def allowed : PathwayState → PathwayState → Bool
  | .proposed, .awaitingApproval => true
  | .proposed, .approved => true
  | .proposed, .denied => true
  | .awaitingApproval, .approved => true
  | .awaitingApproval, .denied => true
  | .awaitingApproval, .humanGate => true
  | .approved, .running => true
  | .approved, .held => true
  | .approved, .aborted => true
  | .running, .completed => true
  | .running, .stopped => true
  | .running, .partiallyCompleted => true
  | .running, .writeStatusUnknown => true
  | .running, .repairRequired => true
  | .held, .humanGate => true
  | .held, .approved => true
  | .held, .aborted => true
  | .humanGate, .approved => true
  | .humanGate, .denied => true
  | .humanGate, .aborted => true
  | .stopped, .repairRequired => true
  | .stopped, .aborted => true
  | .partiallyCompleted, .repairRequired => true
  | .writeStatusUnknown, .completed => true
  | .writeStatusUnknown, .repairRequired => true
  | .repairRequired, .readyToResume => true
  | .repairRequired, .aborted => true
  | .readyToResume, .running => true
  | .readyToResume, .aborted => true
  | _, _ => false

/-- The formal model and the runtime have one table. -/
theorem allowed_iff {a b : PathwayState} : allowed a b = true ↔ b ∈ allowedTransitions a := by
  cases a <;> cases b <;> decide

/-- A run of the formal model. -/
def Reaches : PathwayState → PathwayState → Prop := Relation.ReflTransGen fun a b => allowed a b = true

end RprFormal

/-! ## Growing worlds -/

/-- What is stored stays. -/
structure World.Grows (w w' : World) : Prop where
  events : w.events <:+ w'.events
  pathways : ∀ p row, w.pathways.lookup p = some row →
    ∃ s, w'.pathways.lookup p = some { row with state := s } ∧ RprFormal.Reaches row.state s
  attempts : ∀ x row, w.attempts.lookup x = some row → row.outcome.isSome →
    ∃ res, w'.attempts.lookup x = some { row with outcome := some res }

namespace World

theorem Grows.refl (w : World) : w.Grows w where
  events := List.suffix_refl _
  pathways _ row h := ⟨row.state, h, .refl⟩
  attempts _ row h hout := by
    obtain ⟨res, hres⟩ := Option.isSome_iff_exists.mp hout
    exact ⟨res, by rw [h, ← hres]⟩

theorem Grows.trans {w w' w'' : World} (h : w.Grows w') (h' : w'.Grows w'') : w.Grows w'' where
  events := h.events.trans h'.events
  pathways p row hrow := by
    obtain ⟨s, hs, hreach⟩ := h.pathways p row hrow
    obtain ⟨s', hs', hreach'⟩ := h'.pathways p _ hs
    exact ⟨s', hs', hreach.trans hreach'⟩
  attempts x row hrow hout := by
    obtain ⟨res, hres⟩ := h.attempts x row hrow hout
    obtain ⟨res', hres'⟩ := h'.attempts x _ hres rfl
    exact ⟨res', hres'⟩

/-- The log of a pathway only grows. -/
theorem Grows.log {w w' : World} (h : w.Grows w') (p : String) : w.log p <:+ w'.log p := h.events.filter _

/-- A change of state changes one row. -/
theorem lookup_setState (w : World) (p q : String) (s : PathwayState) : (w.setState p s).pathways.lookup q =
    if q = p then (w.pathways.lookup p).map fun row => { row with state := s } else w.pathways.lookup q := by
  unfold setState
  cases h : w.pathways.lookup p with
  | none =>
    dsimp only
    split_ifs with hq
    · rw [hq, h]
      rfl
    · rfl
  | some row =>
    dsimp only [create]
    split_ifs with hq
    · rw [hq, AList.lookup_insert]
      rfl
    · exact AList.lookup_insert_ne hq

end World

section Step

variable {py : Platform} {order : Option RowOrder} {c : Call} {own : Own} {s : Step} {w : World}

/-- No step removes or changes an event. -/
theorem Step.events_suffix (s : Step) (w : World) : w.events <:+ (s.effect w).events := by
  cases s
  case createOrReplayPathway d fp st key r => rcases r with err | ⟨_ | _, st'⟩ <;> exact List.suffix_refl _
  case transitionWithEvent q a b event r =>
    rcases r with err | ⟨⟩
    · exact List.suffix_refl _
    · show w.events <:+ (w.commit q b event).events
      rw [World.events_commit]
      exact List.suffix_cons _ _
  case appendEvent event r =>
    rcases r with err | ⟨⟩
    · exact List.suffix_refl _
    · exact List.suffix_cons _ _
  case begin q r fp res => rcases res with err | ⟨_ | _, rec⟩ <;> exact List.suffix_refl _
  all_goals exact List.suffix_refl _

/-- A step moves a pathway along the formal relation at most. -/
theorem Step.pathway_grows (hj : Justified py c own s) (ha : s.Answers py order w) {p : String} {row : PathwayRow}
    (hrow : w.pathways.lookup p = some row) : ∃ st, (s.effect w).pathways.lookup p = some { row with state := st } ∧
      RprFormal.Reaches row.state st := by
  have hsame : ∃ st, w.pathways.lookup p = some { row with state := st } ∧ RprFormal.Reaches row.state st :=
    ⟨row.state, hrow, .refl⟩
  cases s
  case createOrReplayPathway d fp st key r =>
    rcases r with err | ⟨_ | _, st'⟩
    · exact hsame
    · have hne : p ≠ d.pathwayId := fun hp => by
        have hnew := (World.createOrReplayPathway_new ha.symm).1
        rw [← hp, World.state, hrow] at hnew
        cases hnew
      exact ⟨row.state, (AList.lookup_insert_ne hne).trans hrow, .refl⟩
    · exact hsame
  case transitionWithEvent q cur target e r =>
    rcases r with err | ⟨⟩
    · exact hsame
    · by_cases hp : p = q
      · subst hp
        obtain rfl : row.state = cur := by
          have hcur := (World.transitionWithEvent_ok ha.symm).1
          rw [World.state, hrow] at hcur
          exact Option.some.inj hcur
        have hedge : target ∈ allowedTransitions row.state := (Commits.edge hj).1
        refine ⟨target, ?_, .single (RprFormal.allowed_iff.mpr hedge)⟩
        exact (World.lookup_setState w p p target).trans (by rw [if_pos rfl, hrow]; rfl)
      · exact ⟨row.state, (World.lookup_setState w q p target).trans (by rw [if_neg hp, hrow]), .refl⟩
  case appendEvent event r => rcases r with err | ⟨⟩ <;> exact hsame
  case begin q r fp res => rcases res with err | ⟨_ | _, rec⟩ <;> exact hsame
  all_goals exact hsame

/-- A row with an outcome keeps its identity. -/
theorem Step.attempt_grows (hj : Justified py c own s) (ha : s.Answers py order w) {x : String} {row : AttemptRow}
    (hrow : w.attempts.lookup x = some row) (hout : row.outcome.isSome) :
    ∃ res, (s.effect w).attempts.lookup x = some { row with outcome := some res } := by
  cases row_cases hj ha x with
  | begun _ _ hnew => exact absurd (hnew.symm.trans hrow) (by simp)
  | @finished row' res _ _ hrow' hnew =>
    obtain rfl : row' = row := Option.some.inj (hrow'.symm.trans hrow)
    exact ⟨res, hnew⟩
  | discarded _ hrow' hnone =>
    rw [Option.some.inj (hrow'.symm.trans hrow)] at hnone
    rw [hnone] at hout
    cases hout
  | untouched hsame =>
    obtain ⟨res, hres⟩ := Option.isSome_iff_exists.mp hout
    exact ⟨res, by rw [hsame, hrow, ← hres]⟩

/-- **A justified step grows the world.** -/
theorem Step.grows (hj : Justified py c own s) (ha : s.Answers py order w) : w.Grows (s.effect w) where
  events := s.events_suffix w
  pathways _ _ hrow := Step.pathway_grows hj ha hrow
  attempts _ _ hrow hout := Step.attempt_grows hj ha hrow hout

end Step

/-! ## Histories -/

/-- The rest of a history grows the world it began in. -/
theorem Reach.grows {py : Platform} {order : Option RowOrder} {newer older : List Record} {w w' : World}
    (h : Reach py order older w) (h' : Reach py order (newer ++ older) w') : w.Grows w' := by
  induction newer generalizing w' with
  | nil =>
    rw [h.unique h']
    exact .refl w
  | cons e newer ih =>
    obtain ⟨hbefore, hj, ha, rfl⟩ := h'.of_cons
    exact (ih hbefore).trans (Step.grows hj ha)

/-- A schedule that goes on only adds to the history. -/
theorem interleaved_append (py : Platform) (order : Option RowOrder) (calls : List (Call × List Oracle))
    (acts more : List (Machine.Action Call Oracle)) : ∃ new,
      (interleaved py order calls (acts ++ more)).trace = new ++ (interleaved py order calls acts).trace := by
  let pool := (database py order).schedule (Call.body py) (.idle (sequential py order calls) calls.length) acts
  obtain ⟨new, hnew, -⟩ : ∃ new, ((database py order).schedule (Call.body py) pool more).hist.trace =
      new ++ pool.hist.trace ∧ ∀ e ∈ new, True :=
    Machine.schedule_trace (Q := fun _ _ => True) (fun _ _ _ _ => trivial) fun _ _ _ _ => trivial
  refine ⟨new, ?_⟩
  show ((database py order).schedule _ _ (acts ++ more)).hist.trace = _
  rw [Machine.schedule, List.foldl_append]
  exact hnew

/-- **What is stored stays, whatever happens next.** In every interleaving of calls, with crashes between any two
operations, and however it goes on: events only follow events, every pathway keeps its definition, its fingerprint and
its key and moves as the formal model allows, and an attempt that was concluded keeps its pathway, its operation, its
key and its fingerprint and stays concluded. -/
theorem interleaved_grows (py : Platform) (order : Option RowOrder) (calls : List (Call × List Oracle))
    (acts more : List (Machine.Action Call Oracle)) :
    (interleaved py order calls acts).world.Grows (interleaved py order calls (acts ++ more)).world := by
  obtain ⟨new, hnew⟩ := interleaved_append py order calls acts more
  have hreach := interleaved_reach py order calls (acts ++ more)
  rw [hnew] at hreach
  exact (interleaved_reach py order calls acts).grows hreach

end Rpr
