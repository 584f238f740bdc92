import Mathlib.Algebra.Field.Defs
import Mathlib.Order.WithBot

/-!
# Extended numbers with nan

A float as an element of an ordered field, an infinity, or nan; every comparison with nan is false.

* `Extended.lt`, `Extended.le`: `<` and `<=`.
* `Extended.le_eq_false_iff`, `Extended.lt_eq_false_iff`: what a comparison that fails says.
-/

set_option autoImplicit false

namespace Rpr

/-- An element of the field or an infinity, or nan. -/
inductive Extended (K : Type) : Type
  | number (x : WithBot (WithTop K))
  | nan
  deriving DecidableEq

namespace Extended

variable {K : Type}

def finite (x : K) : Extended K := .number ((x : WithTop K) : WithBot (WithTop K))

def inf (neg : Bool) : Extended K := .number (if neg then ⊥ else ((⊤ : WithTop K) : WithBot (WithTop K)))

theorem finite_ne_nan (x : K) : finite x ≠ nan := fun h => nomatch h

variable [LinearOrder K]

/-- `x < y`. -/
def lt : Extended K → Extended K → Bool
  | number x, number y => decide (x < y)
  | _, _ => false

/-- `x <= y`. -/
def le : Extended K → Extended K → Bool
  | number x, number y => decide (x ≤ y)
  | _, _ => false

@[simp] theorem lt_nan (x : Extended K) : x.lt nan = false := by cases x <;> rfl

@[simp] theorem nan_lt (x : Extended K) : nan.lt x = false := rfl

@[simp] theorem le_nan (x : Extended K) : x.le nan = false := by cases x <;> rfl

@[simp] theorem nan_le (x : Extended K) : nan.le x = false := rfl

/-- A failed `<=` says `>`, or nothing about nan. -/
theorem le_eq_false_iff (x y : Extended K) : x.le y = false ↔ x = nan ∨ y = nan ∨ y.lt x = true := by
  cases x with
  | nan => exact iff_of_true rfl (.inl rfl)
  | number x =>
    cases y with
    | nan => exact iff_of_true rfl (.inr (.inl rfl))
    | number y => simp [le, lt]

/-- A failed `<` says `>=`, or nothing about nan. -/
theorem lt_eq_false_iff (x y : Extended K) : x.lt y = false ↔ x = nan ∨ y = nan ∨ y.le x = true := by
  cases x with
  | nan => exact iff_of_true rfl (.inl rfl)
  | number x =>
    cases y with
    | nan => exact iff_of_true rfl (.inr (.inl rfl))
    | number y => simp [le, lt]

end Extended

end Rpr
