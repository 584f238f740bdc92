import PathwayRuntime.Recovery.Handover
import PathwayRuntime.Trace.Methods

/-!
# An open pathway can be closed

* `closingMove d p s`: the next closing call for a pathway in state `s`, and the state it leads to.
* `closing d p s`: the closing calls, at most two.
* `solo_abortWithResiduals`, `recordable_closing`: what the residual closure does, and that its event can be recorded.
* **`closing_terminal`**: whatever happened before, the closing calls take the pathway to a terminal state.
-/

set_option autoImplicit false

namespace Rpr

open Resume

/-- The reason given for closing. -/
def closingReason : PyText := "closed"

/-- The residuals declared when closing. -/
def closingResiduals : PyDict := [(.str "note", .text "closed")]

/-- The next call that closes a pathway in this state, and the state it leads to. -/
def closingMove (d : PathwayDefinition) (p : String) : PathwayState → Option (PathwayState × Method)
  | .proposed | .awaitingApproval => some (.denied, .transition p .denied d.residualOwner closingReason)
  | .running => some (.stopped, .transition p .stopped d.stopAuthority closingReason)
  | .partiallyCompleted | .writeStatusUnknown =>
    some (.repairRequired, .transition p .repairRequired d.repairOwner closingReason)
  | .approved | .held | .humanGate | .stopped | .repairRequired | .readyToResume =>
    some (.aborted, .abortWithResiduals p d.residualOwner closingResiduals closingReason)
  | .completed | .denied | .aborted => none

/-- The calls that close a pathway in this state. -/
def closing (d : PathwayDefinition) (p : String) : PathwayState → List Method
  | .proposed | .awaitingApproval => [.transition p .denied d.residualOwner closingReason]
  | .running => [.transition p .stopped d.stopAuthority closingReason,
      .abortWithResiduals p d.residualOwner closingResiduals closingReason]
  | .partiallyCompleted | .writeStatusUnknown => [.transition p .repairRequired d.repairOwner closingReason,
      .abortWithResiduals p d.residualOwner closingResiduals closingReason]
  | .approved | .held | .humanGate | .stopped | .repairRequired | .readyToResume =>
    [.abortWithResiduals p d.residualOwner closingResiduals closingReason]
  | .completed | .denied | .aborted => []

/-- The closing calls, one move at a time. -/
theorem closing_eq (d : PathwayDefinition) (p : String) (s : PathwayState) : closing d p s =
    match closingMove d p s with
    | none => []
    | some (s', m) => m :: closing d p s' := by
  cases s <;> rfl

theorem closingMove_eq_none {d : PathwayDefinition} {p : String} {s : PathwayState}
    (h : closingMove d p s = none) : s ∈ terminalStates := by
  revert h
  cases s <;> simp [closingMove, terminalStates]

/-! ## What the closing calls record -/

section Record

variable {py : Platform}

/-- The default policy spends one item of its budget. -/
theorem default_spend {depth b : ℤ} (hdepth : depth ≤ 12) (hb : 1 ≤ b) :
    RedactionPolicy.default.spend depth b = .ok (b - 1) := by
  have hdepth' : ¬ (depth > 12) := by omega
  have hbudget : ¬ (b - 1 < 0) := by omega
  simp only [RedactionPolicy.spend, RedactionPolicy.default, hdepth', hbudget, if_false]

/-- The events of the closing calls can be recorded. -/
theorem recordable_closing (py : Platform) (cur target : PathwayState) {owner : String} (h : owner.length ≤ 16384) :
    Recordable py .default (edgeFields cur target ++ [("reason", .str closingReason)]) ∧
      Recordable py .default (edgeFields cur target ++ [("residual_owner", .text owner),
        ("residuals", .dict closingResiduals), ("reason", .str closingReason)]) := by
  have hkey : ∀ key ∈ ["from", "to", "residual_owner", "residuals", "reason", "note"],
      RedactionPolicy.default.sensitive py (.utf8 key) = false := by
    intro key hkey
    refine RedactionPolicy.default_sensitive py ?_ ?_ <;> revert key <;> decide
  have hvalue (s : PathwayState) : ¬ ((16384 : ℤ) < s.value.length) := by
    cases s <;> decide
  have howner : ¬ ((16384 : ℤ) < owner.length) := by omega
  have hclosed : ¬ ((16384 : ℤ) < "closed".length) := by decide
  have hitems : RedactionPolicy.default.maxItems = 1000 := rfl
  have hlength : RedactionPolicy.default.maxStringLength = 16384 := rfl
  simp only [List.forall_mem_cons] at hkey
  constructor <;>
    simp [Recordable, RedactionPolicy.redact, RedactionPolicy.redactValue, RedactionPolicy.redactFields,
      PyValue.ofFields, PyValue.text, PyKey.form, PyText.length, edgeFields, closingResiduals, closingReason, hkey,
      default_spend, hvalue, howner, hclosed, hitems, hlength, setField, bind, Except.bind, Except.map, Json.canonical,
      Json.render, Json.renderFields, Json.quote]

end Record

/-! ## What the closing calls do -/

/-- The authorities that close pathways can be named, and the name of the residual owner can be recorded. -/
structure PathwayDefinition.Closable (d : PathwayDefinition) : Prop where
  stop : IsTidy d.stopAuthority
  repair : IsTidy d.repairOwner
  residual : isBlank d.residualOwner = false
  short : d.residualOwner.length ≤ 16384

/-- The pathway is in this state, with this definition. -/
structure Stands (py : Platform) (p : String) (d : PathwayDefinition) (s : PathwayState) (w : World) : Prop where
  state : w.state p = some s
  definition : w.getDefinition py p = .ok d

section Solo

variable {py : Platform} {order : Option RowOrder} {A : Step → Prop} {p actor : String} {d : PathwayDefinition}
  {cur target : PathwayState} {w : World}

theorem Stands.commit (h : Stands py p d cur w) (target : PathwayState) (e : EvidenceEvent) :
    Stands py p d target (w.commit p target e) where
  state := by rw [World.state_commit, if_pos rfl, h.state]; rfl
  definition := by rw [World.getDefinition_commit, h.definition]

/-- The residual closure, in an environment that violates no constraint. -/
theorem solo_abortWithResiduals (h : Stands py p d cur w) (hA : Sound A) (hedge : .aborted ∈ allowedTransitions cur)
    (hblank : isBlank d.residualOwner = false) (hlen : d.residualOwner.length ≤ 16384) :
    Solo py order A (fun _ _ => True) (fun r w' => r = .ok (.state .aborted) ∧ Stands py p d .aborted w')
      (Call.body py ⟨.default, .abortWithResiduals p d.residualOwner closingResiduals closingReason⟩) w := by
  have hactor : ¬ (isBlank d.residualOwner ∨ d.residualOwner ≠ d.residualOwner) := by simp [hblank]
  have haborted : Solo py order A (fun _ _ => True) (fun r w' => r = .ok .aborted ∧ Stands py p d .aborted w')
      (abortWithResiduals py .default p d.residualOwner closingResiduals closingReason) w := by
    refine solo_getState_some h.state (solo_getDefinition_ok h.definition (solo_ofExcept (fun _ _ => ?_) ?_))
    · rw [if_neg hactor]
      refine solo_commit h.state (fun event _ => solo_pure ⟨rfl, h.commit .aborted event⟩) fun herr => ?_
      exact absurd ⟨(recordable_closing py cur .aborted hlen).2, hA⟩ herr
    · intro e he
      rw [ensureTransition_ok.mpr hedge] at he
      cases he
  refine solo_seq haborted ?_ fun e w' he => by cases he.1
  rintro a w' ⟨hok, hstands⟩
  obtain rfl := Except.ok.inj hok
  exact solo_pure ⟨rfl, hstands⟩

/-- A plain transition with the closing reason. -/
theorem solo_closingTransition (h : Stands py p d cur w) (hA : Sound A)
    (ht : Transits py .default d cur target actor closingReason) :
    Solo py order A (fun _ _ => True) (fun r w' => r = .ok (.state target) ∧ Stands py p d target w')
      (Call.body py ⟨.default, .transition p target actor closingReason⟩) w := by
  refine solo_transition h.state h.definition (fun _ event _ => ?_) fun herr => absurd ⟨ht, hA⟩ herr
  exact solo_pure ⟨rfl, h.commit target event⟩

/-- **One closing call**, run alone. -/
theorem solo_closingMove {m : Method} (h : Stands py p d cur w) (hA : Sound A) (hd : d.Closable)
    (hmove : closingMove d p cur = some (target, m)) :
    Solo py order A (fun _ _ => True) (fun r w' => r = .ok (.state target) ∧ Stands py p d target w')
      (Call.body py ⟨.default, m⟩) w := by
  have hrecord := (recordable_closing py cur target hd.short).1
  have habort : .aborted ∈ allowedTransitions cur → some (PathwayState.aborted,
      Method.abortWithResiduals p d.residualOwner closingResiduals closingReason) = some (target, m) →
      Solo py order A (fun _ _ => True) (fun r w' => r = .ok (.state target) ∧ Stands py p d target w')
        (Call.body py ⟨.default, m⟩) w := by
    rintro hedge heq
    obtain ⟨rfl, rfl⟩ := Prod.mk.inj (Option.some.inj heq)
    exact solo_abortWithResiduals h hA hedge hd.residual hd.short
  have htransition {target' : PathwayState} {actor : String} (hedge : target' ∈ allowedTransitions cur)
      (hrun : target' ≠ .running) (hauth : authorizeTransition d cur target' actor = .ok ())
      (heq : some (target', Method.transition p target' actor closingReason) = some (target, m)) :
      Solo py order A (fun _ _ => True) (fun r w' => r = .ok (.state target) ∧ Stands py p d target w')
        (Call.body py ⟨.default, m⟩) w := by
    obtain ⟨rfl, rfl⟩ := Prod.mk.inj (Option.some.inj heq)
    exact solo_closingTransition h hA ⟨hrun, hedge, hauth, hrecord⟩
  cases cur
  case proposed | awaitingApproval =>
    exact htransition (by decide) (by decide) (authorizeTransition_denied hd.residual) hmove
  case running =>
    exact htransition (by decide) (by decide) (IsTidy.authorized ⟨_, d.stopAuthority⟩ hd.stop rfl (by decide)
      (by decide) (by decide)) hmove
  case partiallyCompleted | writeStatusUnknown =>
    exact htransition (by decide) (by decide) (IsTidy.authorized ⟨_, d.repairOwner⟩ hd.repair rfl (by decide)
      (by decide) (by decide)) hmove
  case completed | denied | aborted => cases hmove
  all_goals exact habort (by decide) hmove

end Solo

/-! ## Closing a pathway -/

/-- The closing calls, each in its own environment, made one after another from a history. -/
def closingCalls (d : PathwayDefinition) (p : String) (s : PathwayState) (os : Method → List Oracle) :
    List (Call × List Oracle) :=
  (closing d p s).map fun m => (⟨.default, m⟩, os m)

/-- The steps made after a history violated no constraint. -/
def IntactSince (h h' : History) : Prop :=
  ∀ e ∈ h'.trace.take (h'.trace.length - h.trace.length), e.step.intact = true

instance (h h' : History) : Decidable (IntactSince h h') := inferInstanceAs (Decidable (∀ e ∈ _, _))

section Closed

variable {py : Platform} {order : Option RowOrder} {p : String} {d : PathwayDefinition} {s : PathwayState} {t : ℕ}

theorem intactSince_iff {h h' : History} {new : List Record} (hnew : h'.trace = new ++ h.trace) :
    IntactSince h h' ↔ ∀ e ∈ new, e.step.intact = true := by
  rw [IntactSince, hnew, List.length_append, Nat.add_sub_cancel, List.take_left]

variable (py order) in
/-- Calls only add to the trace. -/
theorem sessions_trace (calls : List (Call × List Oracle)) (t : ℕ) (h : History) :
    ∃ new, ((database py order).sessions (Call.body py) t calls h).trace = new ++ h.trace := by
  induction calls generalizing t h with
  | nil => exact ⟨[], rfl⟩
  | cons call rest ih =>
    obtain ⟨new, hnew, -⟩ := (database py order).run_trace (t := t) (c := call.1) (call.1.body py) call.2 h
    obtain ⟨newer, hnewer⟩ := ih (t + 1) ((database py order).run t call.1 (call.1.body py) call.2 h).2
    exact ⟨newer ++ new, by rw [Machine.sessions, hnewer, hnew, List.append_assoc]⟩

/-- **The closing calls close.** -/
theorem closing_closes (hd : d.Closable) {os : Method → List Oracle} {h : History} (hs : Stands py p d s h.world)
    (hended : (database py order).completes (Call.body py) t (closingCalls d p s os) h = true)
    (hintact : IntactSince h ((database py order).sessions (Call.body py) t (closingCalls d p s os) h)) :
    ∃ s' ∈ terminalStates,
      Stands py p d s' ((database py order).sessions (Call.body py) t (closingCalls d p s os) h).world := by
  unfold closingCalls at hended hintact ⊢
  generalize hlist : closing d p s = methods at hended hintact ⊢
  rw [closing_eq] at hlist
  induction methods generalizing s t h with
  | nil =>
    refine ⟨s, ?_, hs⟩
    cases hmove : closingMove d p s with
    | none => exact closingMove_eq_none hmove
    | some move => rw [hmove] at hlist; cases hlist
  | cons m methods ih =>
    cases hmove : closingMove d p s with
    | none => rw [hmove] at hlist; cases hlist
    | some move =>
      obtain ⟨s', m'⟩ := move
      rw [hmove] at hlist
      obtain ⟨rfl, hrest⟩ := List.cons.inj hlist
      -- The first call, and what the others add to its trace.
      obtain ⟨new, hnew, -⟩ := (database py order).run_trace (t := t) (c := ⟨.default, m'⟩)
        (Call.body py ⟨.default, m'⟩) (os m') h
      obtain ⟨newer, hnewer⟩ := sessions_trace py order
        (methods.map fun m => (⟨.default, m⟩, os m)) (t + 1)
        ((database py order).run t ⟨.default, m'⟩ (Call.body py ⟨.default, m'⟩) (os m') h).2
      have hall : ∀ e ∈ newer ++ new, e.step.intact = true := by
        refine (intactSince_iff ?_).mp hintact
        rw [List.append_assoc, ← hnew]
        exact hnewer
      obtain ⟨hendedFirst, hendedRest⟩ := Bool.and_eq_true_iff.mp hended
      have hrun := (Machine.ensures_run
        (solo_closingMove (A := fun s => s.intact = true) hs (fun _ => id) hd hmove) hnew
        fun e he => hall e (List.mem_append_right _ he)).2
      refine ih (s := s') ?_ ?_ hendedRest ((intactSince_iff hnewer).mpr fun e he => hall e (List.mem_append_left _ he))
      · revert hendedFirst hrun
        cases ((database py order).run t ⟨.default, m'⟩ (Call.body py ⟨.default, m'⟩) (os m') h).1 with
        | returned r => exact fun _ hrun => hrun.2
        | raised e => exact fun _ hrun => by cases hrun.1
        | crashed => exact fun hendedFirst _ => by cases hendedFirst
      · rw [← closing_eq]
        exact hrest

end Closed

/-- **An open pathway can be closed.** Whatever calls were made before, one after another or interleaved, with crashes,
the closing calls of a registered pathway, where they run to their ends and violate no constraint, leave it in a
terminal state. -/
theorem closing_terminal (py : Platform) (order : Option RowOrder) (calls : List (Call × List Oracle))
    (acts : List (Machine.Action Call Oracle)) (t : ℕ) {p : String} {d : PathwayDefinition} {s : PathwayState}
    (hdef : (interleaved py order calls acts).world.getDefinition py p = .ok d)
    (hs : (interleaved py order calls acts).world.state p = some s) (hd : d.Closable) (os : Method → List Oracle)
    (hended : (database py order).completes (Call.body py) t (closingCalls d p s os)
      (interleaved py order calls acts) = true)
    (hintact : IntactSince (interleaved py order calls acts) ((database py order).sessions (Call.body py) t
      (closingCalls d p s os) (interleaved py order calls acts))) :
    ∃ s' ∈ terminalStates, ((database py order).sessions (Call.body py) t (closingCalls d p s os)
      (interleaved py order calls acts)).world.state p = some s' := by
  obtain ⟨s', hs', hstands⟩ := closing_closes hd ⟨hs, hdef⟩ hended hintact
  exact ⟨s', hs', hstands.state⟩

/-- A pathway whose write is unknown. -/
theorem closing_terminal_unknown : ∃ s' ∈ terminalStates, ((database .sample none).sessions (Call.body .sample) 2
    (closingCalls (.sample none) "p" .writeStatusUnknown fun _ => List.replicate 40 {})
    (interleaved .sample none unknownCalls [])).world.state "p" = some s' := by
  have hrun : (interleaved .sample none unknownCalls []).world.state "p" = some .writeStatusUnknown ∧
      (database .sample none).completes (Call.body .sample) 2
        (closingCalls (.sample none) "p" .writeStatusUnknown fun _ => List.replicate 40 {})
        (interleaved .sample none unknownCalls []) = true ∧
      IntactSince (interleaved .sample none unknownCalls []) ((database .sample none).sessions (Call.body .sample) 2
        (closingCalls (.sample none) "p" .writeStatusUnknown fun _ => List.replicate 40 {})
        (interleaved .sample none unknownCalls [])) := by
    decide +kernel
  obtain ⟨hs, hended, hintact⟩ := hrun
  have hdef : (sequential .sample none unknownCalls).world.getDefinition .sample "p" = .ok (.sample none) := by
    refine getDefinition_submitted (d := .sample none) ?_ (Option.isSome_iff_exists.mpr ⟨_, hs⟩)
    simp +contextual [unknownCalls, approvedCalls, Method.answered, eq_comm]
  have hd : (PathwayDefinition.sample none).Closable := by
    refine ⟨?_, ?_, ?_, ?_⟩ <;> (try unfold IsTidy) <;> decide
  exact closing_terminal .sample none unknownCalls [] 2 hdef hs hd _ hended hintact

end Rpr
