import PathwayRuntime.Dispatch.Once

/-!
# An unknown write is repaired before anything runs again

* `moves`: the edges a stretch of a history takes a pathway along; `EdgePath`: edges from one state to another.
* `Reach.path`: between two moments of a history a pathway goes along a path of the table.
* `EdgePath.waypoints`: what lies on every path from an unknown write.
* **`redispatch_repaired`**: the executor is not invoked again for a pathway whose write was unknown before its repair
  was required, completed, and the pathway resumed.
-/

set_option autoImplicit false

namespace Rpr

open Resume

/-! ## The edges of a pathway -/

abbrev StateEdge : Type := PathwayState × PathwayState

/-- The edge a step takes this pathway along. -/
def Step.move (p : String) : Step → Option StateEdge
  | .transitionWithEvent q cur target _ (.ok ()) => if q = p then some (cur, target) else none
  | _ => none

/-- The edges of a stretch of a history, newest first. -/
def moves (p : String) (tr : List Record) : List StateEdge := tr.filterMap fun e => e.step.move p

theorem moves_cons (p : String) (e : Record) (tr : List Record) :
    moves p (e :: tr) = (e.step.move p).toList ++ moves p tr := by
  unfold moves
  rw [List.filterMap_cons]
  cases e.step.move p <;> rfl

/-- The edges, newest first, lead from one state to another. -/
inductive EdgePath (a : PathwayState) : List StateEdge → PathwayState → Prop
  | stay : EdgePath a [] a
  | move {l : List StateEdge} {b c : PathwayState} (h : EdgePath a l b) (hc : c ∈ allowedTransitions b) :
      EdgePath a ((b, c) :: l) c

section Reach

variable {py : Platform} {order : Option RowOrder} {p : String}

/-- A pathway that is stored stays stored, and a step that does not move it leaves its state. -/
theorem state_step {c : Call} {own : Own} {s : Step} {w : World} (hj : Justified py c own s)
    (ha : s.Answers py order w) {a : PathwayState} (hw : w.state p = some a) :
    (s.move p = none ∧ (s.effect w).state p = some a) ∨
      ∃ b, s.move p = some (a, b) ∧ b ∈ allowedTransitions a ∧ (s.effect w).state p = some b := by
  have hsame : s.move p = none ∨ ∃ q cur target e, s = .transitionWithEvent q cur target e (.ok ()) := by
    cases s
    case transitionWithEvent q cur target e r =>
      rcases r with err | ⟨⟩
      · exact .inl rfl
      · exact .inr ⟨q, cur, target, e, rfl⟩
    all_goals exact .inl rfl
  cases pathway_cases hj ha p with
  | created _ _ hnew => exact absurd (hnew.symm.trans hw) (by simp)
  | @committed cur target e hcommit hcur hstate hlog =>
    obtain rfl : cur = a := Option.some.inj (hcur.symm.trans hw)
    exact .inr ⟨target, if_pos rfl, hcommit.edge.1, hstate⟩
  | appended => exact .inl ⟨rfl, hw⟩
  | untouched hstate =>
    rcases hsame with hmove | ⟨q, cur, target, e, rfl⟩
    · exact .inl ⟨hmove, hstate.trans hw⟩
    · by_cases hq : q = p
      · subst hq
        obtain rfl : cur = a := Option.some.inj ((World.transitionWithEvent_ok ha.symm).1.symm.trans hw)
        refine .inr ⟨target, if_pos rfl, (Commits.edge hj).1, ?_⟩
        exact (World.state_commit _ _ _ _ _).trans (by rw [if_pos rfl, hw]; rfl)
      · exact .inl ⟨if_neg hq, hstate.trans hw⟩

/-- **Between two moments of a history a pathway goes along a path of the table.** -/
theorem Reach.path {newer older : List Record} {w w' : World} (h : Reach py order older w)
    (h' : Reach py order (newer ++ older) w') {a : PathwayState} (hw : w.state p = some a) :
    ∃ b, w'.state p = some b ∧ EdgePath a (moves p newer) b := by
  induction newer generalizing w' with
  | nil =>
    rw [h.unique h']
    exact ⟨a, hw, .stay⟩
  | cons e newer ih =>
    obtain ⟨hbefore, hj, ha, rfl⟩ := h'.of_cons
    obtain ⟨b, hb, hpath⟩ := ih hbefore
    rcases state_step hj ha hb with ⟨hmove, hstate⟩ | ⟨c, hmove, hc, hstate⟩
    · refine ⟨b, hstate, ?_⟩
      rwa [moves_cons, hmove]
    · refine ⟨c, hstate, ?_⟩
      rw [moves_cons, hmove]
      exact hpath.move hc

end Reach

/-! ## Leaving an unknown write -/

/-- The edges from an unknown write to another execution, newest first. -/
def repairEdges : List StateEdge :=
  [(.readyToResume, .running), (.repairRequired, .readyToResume), (.writeStatusUnknown, .repairRequired)]

/-- What lies behind a state on every path from an unknown write. -/
def waypoints : PathwayState → List StateEdge
  | .writeStatusUnknown | .completed | .aborted => []
  | .repairRequired => [(.writeStatusUnknown, .repairRequired)]
  | .readyToResume => [(.repairRequired, .readyToResume), (.writeStatusUnknown, .repairRequired)]
  | _ => repairEdges

/-- One edge more. -/
theorem waypoints_move {b c : PathwayState} (h : c ∈ allowedTransitions b) :
    (waypoints c).Sublist ((b, c) :: waypoints b) := by
  cases b <;> cases c <;> first | exact absurd h (by decide) | decide

theorem EdgePath.waypoints {l : List StateEdge} {b : PathwayState} (h : EdgePath .writeStatusUnknown l b) :
    (waypoints b).Sublist l := by
  induction h with
  | stay => exact List.Sublist.refl _
  | move h hc ih => exact (waypoints_move hc).trans (ih.cons_cons _)

/-- **An unknown write is not executed over.** When calls are made one after another, with crashes between any two
operations, and a pathway is in `WRITE_STATUS_UNKNOWN` at some moment, then the executor is only invoked for it later if
in between its repair was required, completed, and the pathway resumed, in this order. -/
theorem redispatch_repaired (py : Platform) (order : Option RowOrder) (calls : List (Call × List Oracle))
    {newer between older : List Record} {e e₀ : Record} {p x : String}
    (htr : (sequential py order calls).trace = newer ++ e :: (between ++ e₀ :: older))
    (hunknown : e₀.before.state p = some .writeStatusUnknown) (hdispatch : e.step.dispatch = some (p, x)) :
    repairEdges.Sublist (moves p (between ++ [e₀])) := by
  obtain ⟨hreach, hserial, -⟩ := sequential_reach py order calls
  rw [htr] at hreach hserial
  obtain ⟨hbefore, hj⟩ := hreach.of_append
  have hserial' := List.pairwise_cons.mp (List.pairwise_append.mp hserial).2.1
  have hrunning := (dispatch_running ⟨hbefore, hserial'.2, hserial'.1⟩ hj hdispatch).1
  have hold : Reach py order older e₀.before := hbefore.of_append.1
  rw [← List.singleton_append, ← List.append_assoc] at hbefore
  obtain ⟨b, hb, hpath⟩ := hold.path hbefore hunknown
  obtain rfl : PathwayState.running = b := Option.some.inj (hrunning.symm.trans hb)
  exact hpath.waypoints

/-- An entry behind another one. -/
theorem exists_between {P Q : Record → Bool} {tr : List Record} (h : (tr.dropWhile fun e => !P e).tail.any Q = true) :
    ∃ newer e between e₀ older, tr = newer ++ e :: (between ++ e₀ :: older) ∧ P e = true ∧ Q e₀ = true := by
  obtain ⟨e₀, hmem, hQ⟩ := List.any_eq_true.mp h
  cases hdrop : tr.dropWhile fun e => !P e with
  | nil =>
    rw [hdrop] at hmem
    cases hmem
  | cons e rest =>
    rw [hdrop] at hmem
    obtain ⟨between, older, rfl⟩ := List.append_of_mem hmem
    have hP : (!P e) = false := by
      have := List.head?_dropWhile_not (fun e => !P e) tr
      rw [hdrop] at this
      simpa using this
    refine ⟨tr.takeWhile fun e => !P e, e, between, e₀, older, ?_, by simpa using hP, hQ⟩
    rw [← hdrop, List.takeWhile_append_dropWhile]

/-- The write of `a` is unknown, turns out not to be applied and is repaired; then `b` is executed. -/
def repairedCalls : List (Call × List Oracle) :=
  unknownCalls ++ [observing requestA ⟨.verifiedNotApplied, [], none⟩, repairing "a", resuming "a" "b",
    executing requestB ⟨.succeeded, [], none, none⟩]

theorem redispatch_repaired_b : ∃ newer e between e₀ older, (sequential .sample none repairedCalls).trace =
    newer ++ e :: (between ++ e₀ :: older) ∧ e₀.before.state "p" = some .writeStatusUnknown ∧
      e.step.dispatch = some ("p", "b") ∧ repairEdges.Sublist (moves "p" (between ++ [e₀])) := by
  have h : ((sequential .sample none repairedCalls).trace.dropWhile fun e =>
      !decide (e.step.dispatch = some ("p", "b"))).tail.any
        (fun e => decide (e.before.state "p" = some .writeStatusUnknown)) = true := by decide +kernel
  obtain ⟨newer, e, between, e₀, older, htr, hP, hQ⟩ := exists_between h
  have hdispatch := of_decide_eq_true hP
  have hunknown := of_decide_eq_true hQ
  exact ⟨newer, e, between, e₀, older, htr, hunknown, hdispatch,
    redispatch_repaired .sample none repairedCalls htr hunknown hdispatch⟩

end Rpr
