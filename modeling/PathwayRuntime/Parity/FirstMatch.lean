import Mathlib.Data.List.Basic

/-!
# The first clause that covers

A function given by ordered clauses: each covers some inputs and has a value.

* `firstMatch`: the value of the first clause that covers an input; `firstMatch_split`.
* `Shows`: what is shown of the clauses is what they decide, said clause by clause.
* **`shows_iff`**: the clauses show `S` exactly when `S` is where the first match is true.
-/

set_option autoImplicit false

namespace FirstMatch

section Value

variable {γ α β : Type*} (covers : γ → α → Bool) (value : γ → β)

/-- The value of the first clause that covers `x`. -/
def firstMatch (clauses : List γ) (x : α) : Option β := (clauses.find? (covers · x)).map value

variable {covers value} {clauses before after : List γ} {c : γ} {x : α} {b : β}

/-- The clause that decides, with those before it. -/
theorem exists_first (h : firstMatch covers value clauses x = some b) :
    ∃ before c after, clauses = before ++ c :: after ∧ covers c x = true ∧ value c = b ∧
      ∀ c' ∈ before, covers c' x = false := by
  obtain ⟨c, hfind, hvalue⟩ := Option.map_eq_some_iff.mp h
  obtain ⟨hc, before, after, hclauses, hbefore⟩ := List.find?_eq_some_iff_append.mp hfind
  exact ⟨before, c, after, hclauses, hc, hvalue, fun c' hmem => by simpa using hbefore c' hmem⟩

theorem exists_of_firstMatch (h : firstMatch covers value clauses x = some b) :
    ∃ c ∈ clauses, value c = b ∧ covers c x = true := by
  obtain ⟨before, c, after, rfl, hc, hvalue, -⟩ := exists_first h
  exact ⟨c, List.mem_append_right before List.mem_cons_self, hvalue, hc⟩

theorem firstMatch_eq_none :
    firstMatch covers value clauses x = none ↔ ∀ c ∈ clauses, covers c x = false := by
  simp [firstMatch]

/-- A clause that covers `x` decides it unless an earlier one does. -/
theorem firstMatch_split (hc : covers c x = true) :
    firstMatch covers value (before ++ c :: after) x =
      some ((firstMatch covers value before x).getD (value c)) := by
  have hfirst : (c :: after).find? (covers · x) = some c := List.find?_cons_of_pos hc
  rw [firstMatch, List.find?_append, hfirst, firstMatch]
  cases before.find? (covers · x) with
  | none => rfl
  | some first => rfl

end Value

section Shown

variable {γ α : Type*} (covers : γ → α → Bool) (value : γ → Bool) (clauses : List γ) (Domain S : α → Prop)

/-- On `Domain`, the clauses show `S`.

* `written`: what is shown is covered by a true clause.
* `unshadowed`: a false clause covers what is shown only behind a true one.
* `narrow`: a true clause covers what is not shown only behind a false one. -/
structure Shows : Prop where
  written : ∀ x, S x → Domain x ∧ ∃ c ∈ clauses, value c = true ∧ covers c x = true
  unshadowed : ∀ before c after, clauses = before ++ c :: after → value c = false →
    ∀ x, S x → covers c x = true → ∃ c' ∈ before, value c' = true ∧ covers c' x = true
  narrow : ∀ before c after, clauses = before ++ c :: after → value c = true →
    ∀ x, Domain x → ¬ S x → covers c x = true → ∃ c' ∈ before, value c' = false ∧ covers c' x = true

variable {covers value clauses Domain S} {x : α}

/-- What is shown is where the first match is true. -/
theorem Shows.iff_true (h : Shows covers value clauses Domain S) :
    (Domain x ∧ firstMatch covers value clauses x = some true) ↔ S x := by
  constructor
  · rintro ⟨hdomain, htrue⟩
    obtain ⟨before, c, after, hclauses, hc, hvalue, hbefore⟩ := exists_first htrue
    by_contra hS
    obtain ⟨c', hmem, -, hc'⟩ := h.narrow before c after hclauses hvalue x hdomain hS hc
    exact absurd hc' (by simp [hbefore c' hmem])
  · intro hS
    obtain ⟨hdomain, d, hd, -, hdx⟩ := h.written x hS
    refine ⟨hdomain, ?_⟩
    cases hfirst : firstMatch covers value clauses x with
    | none => exact absurd hdx (by simp [firstMatch_eq_none.mp hfirst d hd])
    | some b =>
      obtain ⟨before, c, after, hclauses, hc, hvalue, hbefore⟩ := exists_first hfirst
      cases b with
      | true => rfl
      | false =>
        obtain ⟨c', hmem, -, hc'⟩ := h.unshadowed before c after hclauses hvalue x hS hc
        exact absurd hc' (by simp [hbefore c' hmem])

/-- **The clauses show `S` exactly when `S` is where the first match is true.** -/
theorem shows_iff : Shows covers value clauses Domain S ↔
    ∀ x, (Domain x ∧ firstMatch covers value clauses x = some true) ↔ S x := by
  refine ⟨fun h x => h.iff_true, fun h => ⟨fun x hS => ?_, ?_, ?_⟩⟩
  · obtain ⟨hdomain, htrue⟩ := (h x).mpr hS
    exact ⟨hdomain, exists_of_firstMatch htrue⟩
  · rintro before c after rfl hvalue x hS hc
    have htrue := ((h x).mpr hS).2
    rw [firstMatch_split hc, hvalue] at htrue
    cases hbefore : firstMatch covers value before x with
    | none => exact absurd htrue (by simp [hbefore])
    | some b =>
      rw [hbefore] at htrue
      obtain rfl := Option.some.inj htrue
      exact exists_of_firstMatch hbefore
  · rintro before c after rfl hvalue x hdomain hS hc
    have hfirst := @firstMatch_split _ _ _ covers value before after c x hc
    cases hbefore : firstMatch covers value before x with
    | none =>
      rw [hbefore, hvalue] at hfirst
      exact absurd ((h x).mp ⟨hdomain, hfirst⟩) hS
    | some b =>
      cases b with
      | false => exact exists_of_firstMatch hbefore
      | true =>
        rw [hbefore] at hfirst
        exact absurd ((h x).mp ⟨hdomain, hfirst⟩) hS

end Shown

end FirstMatch
