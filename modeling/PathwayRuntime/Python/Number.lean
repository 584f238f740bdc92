import Mathlib.Algebra.Group.Int.Defs
import PathwayRuntime.Python.Value

/-!
# Comparing numbers

Python compares integers, truth values and floats by their exact values, so `1 == 1.0 == True`.

* `Decimal.binary`: the binary64 number a float is; `Decimal.scaled`: as a fraction.
* `Json.sameNumber`, `Json.numberLe`: `==` and `<=` of numbers.
-/

set_option autoImplicit false

namespace Rpr

/-- `n / d`, to the nearest integer, ties to the even one. -/
def roundDiv (n d : ℕ) : ℕ :=
  let q := n / d
  if 2 * (n % d) < d then q else if 2 * (n % d) > d then q + 1 else q + q % 2

namespace Decimal

/-- The binary64 number nearest to the digits: so many times this power of two. -/
def binary (x : Decimal) : ℕ × ℤ :=
  let n := x.digits * 10 ^ x.exp.toNat
  let d := 10 ^ (-x.exp).toNat
  -- `n / d` lies between the powers of two with exponents `k - 1` and `k + 1`.
  let k : ℤ := (n.log2 : ℤ) - d.log2
  let floor := if d * 2 ^ k.toNat ≤ n * 2 ^ (-k).toNat then k else k - 1
  let e := max (floor - 52) (-1074)
  (roundDiv (n * 2 ^ (-e).toNat) (d * 2 ^ e.toNat), e)

/-- That number, as a fraction. -/
def scaled (x : Decimal) : ℤ × ℕ :=
  let (m, e) := x.binary
  ((if x.neg then -1 else 1) * (m * 2 ^ e.toNat), 2 ^ (-e).toNat)

/-- `x == i`. -/
def isInt (x : Decimal) (i : ℤ) : Bool := x.scaled.1 == i * x.scaled.2

/-- `x == y`: the digits are those of the value, but for the sign of zero. -/
def same (x y : Decimal) : Bool := x == y || x.digits == 0 && y.digits == 0

end Decimal

/-- `x == i`. -/
def PyFloat.isInt : PyFloat → ℤ → Bool
  | .finite x, i => x.isInt i
  | _, _ => false

/-- `x == y`. -/
def PyFloat.same : PyFloat → PyFloat → Bool
  | .finite x, .finite y => x.same y
  | .inf neg, .inf neg' => neg == neg'
  | _, _ => false

namespace Json

/-- A truth value or an integer, as an integer. -/
def int? : Json → Option ℤ
  | .bool b => some b.toInt
  | .int i => some i
  | _ => none

/-- `a == b`, of numbers. -/
def sameNumber : Json → Json → Bool
  | .float x, .float y => x.same y
  | .float x, b => b.int?.any x.isInt
  | a, .float y => a.int?.any y.isInt
  | a, b => a.int?.isSome && a.int? == b.int?

/-- A number as a fraction, an infinite one over zero; none for `nan`. -/
def fraction? : Json → Option (ℤ × ℕ)
  | .float (.finite x) => some x.scaled
  | .float (.inf neg) => some (if neg then -1 else 1, 0)
  | .float .nan => none
  | a => a.int?.map (·, 1)

/-- `a <= b`, of numbers. -/
def numberLe (a b : Json) : Bool :=
  match a.fraction?, b.fraction? with
  | some (n, d), some (n', d') => if d = 0 ∧ d' = 0 then decide (n ≤ n') else decide (n * d' ≤ n' * d)
  | _, _ => false

end Json

example : (Decimal.isInt ⟨false, 1, 23, .inl (by decide)⟩ (10 ^ 23), Decimal.isInt ⟨false, 15, -1, .inl (by decide)⟩ 1,
    Decimal.isInt ⟨false, 9007199254740992, 0, .inl (by decide)⟩ (2 ^ 53)) = (false, false, true) := by decide +kernel

end Rpr
