import PathwayRuntime.Trace.Binding

/-!
# Other pathways

* `SamePathway`: two worlds agree on a pathway: its state, its log and its rows of the ledger.
* `Finishes.pathway`, `Discards.pathway`: a row that is written belongs to the pathway of the call.
* **`frame_step`**: in a serial history a call on one pathway leaves every other pathway alone, when
  `begin` finds the row of the request's own attempt first.
-/

set_option autoImplicit false

namespace Rpr

open Resume

/-- The worlds agree on a pathway. -/
structure SamePathway (p : String) (w w' : World) : Prop where
  state : w'.state p = w.state p
  log : w'.log p = w.log p
  rows : ∀ x row, row.pathwayId = p →
    (w'.attempts.lookup x = some row ↔ w.attempts.lookup x = some row)

theorem SamePathway.refl (p : String) (w : World) : SamePathway p w w :=
  ⟨rfl, rfl, fun _ _ _ => Iff.rfl⟩

theorem SamePathway.trans {p : String} {w₁ w₂ w₃ : World} (h : SamePathway p w₁ w₂)
    (h' : SamePathway p w₂ w₃) : SamePathway p w₁ w₃ :=
  ⟨h'.state.trans h.state, h'.log.trans h.log, fun x row hp => (h'.rows x row hp).trans (h.rows x row hp)⟩

section Calls

variable {py : Platform} {c : Call} {own : Own} {p x : String}

/-- A method only asks for transitions of its own pathway. -/
theorem Method.Requests.pathway {m : Method} {target : PathwayState} {actor : String}
    (h : m.Requests p target actor) : m.pathwayId = p := by
  cases m
  case transitionAsPrincipal q t resolved reason =>
    rcases resolved with e | ⟨principal, a⟩
    · exact h.elim
    · exact h.1
  case transition | markWriteUnknown | requireRepair => exact h.1
  all_goals exact h.elim

theorem Commits.pathway {cur target : PathwayState} {e : EvidenceEvent}
    (h : Commits py c own p cur target e) : c.method.pathwayId = p := by
  cases h with
  | requested hc => exact hc.pathway
  | moved hc | started hc | late hc | reconciled hc | repaired hc | resumed hc | closed hc =>
    rw [hc]
    rfl

theorem Appends.pathway {e : EvidenceEvent} (h : Appends py c own e) :
    c.method.pathwayId = e.pathwayId := by
  obtain ⟨q, ty, actor, payload, base, hq, -, -, hseal⟩ := h
  rw [hq, hseal.fields.1]

theorem Begins.pathway {request : ExecutionRequest} (h : Begins c own p request) :
    c.method.pathwayId = p := by
  cases h with
  | execute hc | again hc | reconcile hc =>
    rw [hc]
    rfl

theorem Registers.pathway {d : PathwayDefinition} {s : PathwayState} (h : Registers c own d s) :
    c.method.pathwayId = d.pathwayId := by
  obtain ⟨key, _, _, _, _, hc, -⟩ := h
  rw [hc]
  rfl

end Calls

section Rows

variable {py : Platform} {t : ℕ} {c : Call} {tr : List Record} {w : World} {x : String}
  {row : AttemptRow}

/-- An outcome is stored in a row of the pathway of the call. -/
theorem Finishes.pathway (h : SerialReach py (some .attemptIdFirst) t tr w) {res : PersistedResult}
    (hj : Finishes py c (own t tr) x res) (hrow : w.attempts.lookup x = some row) :
    row.pathwayId = c.method.pathwayId := by
  obtain ⟨newer, older, w₀, -, -, -, halone⟩ := h.whole
  generalize own t tr = o at hj halone
  cases hj with
  | executed hc hdis =>
    obtain ⟨hcleared⟩ := hdis
    obtain ⟨w', hcleared', -, rfl⟩ := halone
    obtain ⟨row', hrow', hp, -⟩ := (hcleared.alone hcleared').1.row
    obtain rfl := Option.some.inj (hrow'.symm.trans hrow)
    rw [hp, hc]
    rfl
  | reconciled hc hobs =>
    obtain ⟨hadm, -⟩ := hobs
    obtain ⟨w', ⟨w'', hadm', hbegin, rfl⟩, -, rfl⟩ := halone
    obtain ⟨hfound, hp, hfirst⟩ := replayed_row hbegin
    rcases hfirst rfl with hsame | hnone
    · rw [hsame] at hfound
      obtain rfl := Option.some.inj (hfound.symm.trans hrow)
      rw [hc]
      exact hp
    · exact absurd (hnone.symm.trans hrow) (by simp)

/-- A started row is discarded from the pathway of the call. -/
theorem Discards.pathway (h : SerialReach py (some .attemptIdFirst) t tr w)
    (hj : Discards c (own t tr) x) (hrow : w.attempts.lookup x = some row) :
    row.pathwayId = c.method.pathwayId := by
  obtain ⟨newer, older, w₀, -, -, -, halone⟩ := h.whole
  generalize own t tr = o at hj halone
  cases hj with
  | @restart p actor fp request rec base hc hadm hrec ho =>
    subst ho
    obtain ⟨w', ⟨w'', hadm', hbegin, rfl⟩, -, rfl⟩ := halone
    obtain ⟨hfound, hp, hfirst⟩ := replayed_row hbegin
    rcases hfirst rfl with hsame | hnone
    · rw [hsame] at hfound
      obtain rfl := Option.some.inj (hfound.symm.trans hrow)
      rw [hc]
      exact hp
    · exact absurd (hnone.symm.trans hrow) (by simp)
  | @abandoned p actor request s base mid hc hbegun hmid hs ho =>
    subst ho
    obtain ⟨row', hrow', hp, -⟩ := (hbegun.alone (halone.over (hmid.cons rfl))).1.row
    obtain rfl := Option.some.inj (hrow'.symm.trans hrow)
    rw [hp, hc]
    rfl
  | @reconcile p actor fp request rec base hc hadm ho =>
    subst ho
    obtain ⟨w', -, -, rfl⟩ := halone
    obtain rfl := Option.some.inj ((AList.lookup_insert _).symm.trans hrow)
    rw [hc]
    rfl

end Rows

/-- **A call leaves the other pathways alone.** -/
theorem frame_step {py : Platform} {t : ℕ} {c : Call} {tr : List Record} {w : World} {s : Step}
    {p : String} (h : SerialReach py (some .attemptIdFirst) t tr w) (hp : c.method.pathwayId ≠ p)
    (hj : Justified py c (own t tr) s) (ha : s.Answers py (some .attemptIdFirst) w) :
    SamePathway p w (s.effect w) := by
  have hrows : ∀ x row, row.pathwayId = p →
      ((s.effect w).attempts.lookup x = some row ↔ w.attempts.lookup x = some row) := by
    intro x row hrow
    cases row_cases hj ha x with
    | begun hbegin _ hnone hnew =>
      rw [hnew, hnone]
      refine ⟨fun hr => absurd (hbegin.pathway.trans ?_) hp, fun hr => by cases hr⟩
      rw [← hrow, ← Option.some.inj hr]
      rfl
    | finished hfin hold hnew =>
      have hpath := hfin.pathway h hold
      rw [hnew, hold]
      refine ⟨fun hr => absurd (hpath.symm.trans ?_) hp, fun hr => absurd (hpath.symm.trans ?_) hp⟩
      · rw [← hrow, ← Option.some.inj hr]
      · rw [← hrow, ← Option.some.inj hr]
    | discarded hdis hold _ hnew =>
      have hpath := hdis.pathway h hold
      rw [hnew, hold]
      refine ⟨fun hr => absurd hr (by simp), fun hr => absurd (hpath.symm.trans ?_) hp⟩
      rw [← hrow, ← Option.some.inj hr]
    | untouched hsame => rw [hsame]
  cases pathway_cases hj ha p with
  | created hd hreg => exact absurd (hreg.pathway.trans hd) hp
  | committed hcommit => exact absurd hcommit.pathway hp
  | appended happ he => exact absurd (happ.pathway.trans he) hp
  | untouched hstate _ hlog => exact ⟨hstate, hlog, hrows⟩

/-- The same for a whole call. -/
theorem frame_call (py : Platform) (calls : List (Call × List Oracle)) {c : Call} {p : String}
    (hp : c.method.pathwayId ≠ p) (os : List Oracle) :
    SamePathway p (sequential py (some .attemptIdFirst) calls).world
      (sequential py (some .attemptIdFirst) (calls ++ [(c, os)])).world :=
  Running.induct (motive := SamePathway p (sequential py (some .attemptIdFirst) calls).world)
    (.refl p _) fun _ _ _ h hsame hj ha => hsame.trans (frame_step h hp hj ha)

end Rpr
