import Mathlib.Tactic.IntervalCases
import Mathlib.Tactic.Positivity
import Mathlib.Tactic.Ring
import PathwayRuntime.Python.Loads

/-!
# What the scanner reads of what was written

* `Stops`: a text whose first character, if it has one, is not of a kind.
* `scanText_quote`: a string literal; `scanNumber_int`, `scanNumber_float`: the numbers.
-/

set_option autoImplicit false

namespace Rpr

/-- The first character of a text, if it has one, does not satisfy `p`. -/
def Stops (p : Char → Bool) (text : List Char) : Prop := ∀ c ∈ text.head?, p c = false

theorem stops_cons {p : Char → Bool} {c : Char} {text : List Char} : Stops p (c :: text) ↔ p c = false := by
  simp [Stops]

theorem stops_append {p : Char → Bool} {a b : List Char} (h : a ≠ []) : Stops p (a ++ b) ↔ Stops p a := by
  obtain ⟨c, a, rfl⟩ := List.exists_cons_of_ne_nil h
  rw [List.cons_append, stops_cons, stops_cons]

/-! ## Strings -/

theorem hexValue_hexDigit : ∀ n < 16, hexValue (Json.hexDigit n) = some n := by
  decide

theorem scanString_end (text : List Char) : scanString ('"' :: text) = .ok ([], text) := by
  rw [scanString.eq_def]
  rfl

theorem scanString_plain {c : Char} (hquote : c ≠ '"') (hescape : c ≠ '\\') (hcontrol : ¬ c.toNat < 32)
    (text : List Char) : scanString (c :: text) = (scanString text).cons c.toNat := by
  rw [scanString.eq_def]
  simp only [if_neg hquote, if_neg hescape, if_neg hcontrol]

theorem scanString_unescape {e : Char} {code : ℕ} (he : e ≠ 'u') (hcode : unescape e = some code)
    (text : List Char) : scanString ('\\' :: e :: text) = (scanString text).cons code := by
  rw [scanString.eq_def]
  simp [he, hcode]

theorem scanString_code {a b c d : Char} {code : ℕ} (hcode : hexCode a b c d = some code)
    (text : List Char) :
    scanString ('\\' :: 'u' :: a :: b :: c :: d :: text) = (scanString text).cons code := by
  rw [scanString.eq_def]
  simp [hcode]

/-- What was written for a character is read back. -/
theorem scanString_escape (c : Char) (text : List Char) :
    scanString (Json.escape c ++ text) = (scanString text).cons c.toNat := by
  rw [Json.escape]
  split_ifs with h₁ h₂ h₃ h₄ h₅ h₆ h₇ h₈
  · subst h₁
    exact scanString_unescape (by decide) rfl text
  · subst h₂
    exact scanString_unescape (by decide) rfl text
  · subst h₃
    exact scanString_unescape (by decide) rfl text
  · subst h₄
    exact scanString_unescape (by decide) rfl text
  · subst h₅
    exact scanString_unescape (by decide) rfl text
  · rw [h₆]
    exact scanString_unescape (by decide) rfl text
  · rw [h₇]
    exact scanString_unescape (by decide) rfl text
  · -- A control character is escaped by its code point.
    have hcode : hexCode '0' '0' (Json.hexDigit (c.toNat / 16)) (Json.hexDigit (c.toNat % 16)) =
        some c.toNat := by
      have hhigh := hexValue_hexDigit (c.toNat / 16) (by omega)
      have hlow := hexValue_hexDigit (c.toNat % 16) (by omega)
      have hzero : hexValue '0' = some 0 := rfl
      simp only [hexCode, hhigh, hlow, hzero, Option.bind_eq_bind, Option.bind_some]
      congr 1
      omega
    exact scanString_code hcode text
  · exact scanString_plain h₁ h₂ h₈ text

/-- What was written for a text is read back, up to its closing quote. -/
theorem scanString_escaped (chars rest : List Char) :
    scanString (chars.flatMap Json.escape ++ '"' :: rest) = .ok (chars.map Char.toNat, rest) := by
  induction chars with
  | nil => exact scanString_end rest
  | cons c chars ih =>
    rw [List.flatMap_cons, List.append_assoc, scanString_escape, ih]
    rfl

/-- A character is no surrogate. -/
theorem not_isSurrogate_toNat (c : Char) : ¬ PyText.isSurrogate c.toNat := by
  intro h
  have hvalid := c.valid
  simp only [UInt32.isValidChar, Nat.isValidChar] at hvalid
  rw [PyText.isSurrogate, Char.toNat] at h
  omega

theorem joinSurrogates_of_chars (chars : List Char) :
    joinSurrogates (chars.map Char.toNat) = chars.map Char.toNat := by
  induction chars with
  | nil => rfl
  | cons c chars ih =>
    cases chars with
    | nil => rfl
    | cons c' chars =>
      rw [List.map_cons, List.map_cons, joinSurrogates, if_neg, ← List.map_cons, ih]
      rintro ⟨hlow, hhigh, -, -⟩
      exact not_isSurrogate_toNat c ⟨hlow, by omega⟩

theorem ofCodes_of_chars (chars : List Char) :
    PyText.ofCodes (chars.map Char.toNat) = .utf8 (String.ofList chars) := by
  have hnone : ¬ ∃ code ∈ chars.map Char.toNat, PyText.isSurrogate code := by
    rintro ⟨code, hcode, hsurrogate⟩
    obtain ⟨c, -, rfl⟩ := List.mem_map.mp hcode
    exact not_isSurrogate_toNat c hsurrogate
  rw [PyText.ofCodes, dif_neg hnone, List.map_map]
  simp [Function.comp_def]

/-- **A string literal is read back.** -/
theorem scanText_quote {s : PyText} {literal : List Char} (h : Json.quote s = some literal)
    (rest : List Char) : ∃ body, literal ++ rest = '"' :: body ∧ scanText body = .ok (s, rest) := by
  cases s with
  | lone codes hcodes => cases h
  | utf8 s =>
    obtain rfl := Option.some.inj h
    refine ⟨s.toList.flatMap Json.escape ++ '"' :: rest, by simp, ?_⟩
    rw [scanText, scanString_escaped]
    simp only [Except.map, joinSurrogates_of_chars, ofCodes_of_chars, String.ofList_toList]

/-! ## Digits -/

theorem spanDigits_append {digits rest : List Char} (hdigits : ∀ c ∈ digits, c.isDigit = true)
    (hrest : Stops Char.isDigit rest) : spanDigits (digits ++ rest) = (digits, rest) := by
  rw [spanDigits, List.takeWhile_append_of_pos hdigits, List.dropWhile_append_of_pos hdigits]
  cases rest with
  | nil => simp
  | cons c rest =>
    have hc := stops_cons.mp hrest
    rw [List.takeWhile_cons_of_neg (by simp [hc]), List.dropWhile_cons_of_neg (by simp [hc]),
      List.append_nil]

/-- The decimal digits of a number. -/
def decimalDigits (n : ℕ) : List Char := Nat.toDigits 10 n

theorem toList_toString (n : ℕ) : (toString n).toList = decimalDigits n := by
  rw [Nat.toString_eq_repr, Nat.toList_repr, decimalDigits]

theorem isDigit_of_mem {n : ℕ} {c : Char} (h : c ∈ decimalDigits n) : c.isDigit = true :=
  Nat.isDigit_of_mem_toDigits (by decide) (by decide) h

theorem decimalDigits_ne_nil (n : ℕ) : decimalDigits n ≠ [] := Nat.toDigits_ne_nil

@[simp] theorem digitsValue_decimalDigits (n : ℕ) : digitsValue (decimalDigits n) = n :=
  Nat.ofDigitChars_ten_toDigits

/-- A number has no leading zeros, and zero has one digit. -/
theorem decimalDigits_head (n : ℕ) : decimalDigits n = ['0'] ∨ Stops (· == '0') (decimalDigits n) := by
  induction n using Nat.strongRecOn with
  | ind n ih =>
    rw [decimalDigits]
    by_cases hsmall : n < 10
    · rw [Nat.toDigits_of_lt_base hsmall]
      interval_cases n <;> simp [stops_cons]
    · refine .inr ?_
      rw [Nat.toDigits_of_base_le (by decide) (by omega)]
      rcases ih (n / 10) (by omega) with hzero | hstops
      · -- Only zero is written as a zero.
        have : digitsValue (decimalDigits (n / 10)) = 0 := by rw [hzero]; rfl
        rw [digitsValue_decimalDigits] at this
        omega
      · exact (stops_append (decimalDigits_ne_nil _)).mpr hstops

theorem digitsValue_append_zeros (digits : List Char) (k : ℕ) :
    digitsValue (digits ++ List.replicate k '0') = digitsValue digits * 10 ^ k := by
  rw [digitsValue, Nat.ofDigitChars_append, Nat.ofDigitChars_replicate_zero, Nat.mul_comm]
  rfl

theorem digitsValue_zeros_append (digits : List Char) (k : ℕ) :
    digitsValue (List.replicate k '0' ++ digits) = digitsValue digits := by
  rw [digitsValue, Nat.ofDigitChars_append, Nat.ofDigitChars_replicate_zero, Nat.mul_zero]
  rfl

/-! ## Numbers -/

/-- The characters with which a number goes on. -/
def goesOn (c : Char) : Bool := c.isDigit || c == '.' || c == 'e' || c == 'E'

theorem Stops.imp {p q : Char → Bool} {text : List Char} (h : Stops p text) (hpq : ∀ c, q c = true → p c = true) :
    Stops q text := by
  intro c hc
  have := mt (hpq c)
  simp only [h c hc, Bool.false_eq_true, not_false_eq_true, Bool.not_eq_true, forall_const] at this
  exact this

theorem scanInteger_append {digits rest : List Char} (hne : digits ≠ [])
    (hdigits : ∀ c ∈ digits, c.isDigit = true) (hzero : digits = ['0'] ∨ Stops (· == '0') digits)
    (hrest : Stops Char.isDigit rest) : scanInteger (digits ++ rest) = some (digits, rest) := by
  rcases hzero with rfl | hzero
  · rfl
  obtain ⟨c, digits, rfl⟩ := List.exists_cons_of_ne_nil hne
  have hc : c ≠ '0' := by simpa using stops_cons.mp hzero
  rw [scanInteger.eq_def]
  split
  · rename_i text heq
    exact absurd (List.cons.inj heq).1 hc
  · rw [spanDigits_append hdigits hrest, if_neg hne]

theorem scanFraction_append {digits rest : List Char} (hne : digits ≠ [])
    (hdigits : ∀ c ∈ digits, c.isDigit = true) (hrest : Stops Char.isDigit rest) :
    scanFraction ('.' :: (digits ++ rest)) = (some digits, rest) := by
  rw [scanFraction, spanDigits_append hdigits hrest, if_neg hne]

theorem scanFraction_stops {rest : List Char} (h : Stops (· == '.') rest) :
    scanFraction rest = (none, rest) := by
  rw [scanFraction.eq_def]
  split
  · simp [stops_cons] at h
  · rfl

theorem scanExponent_append {digits rest : List Char} (neg : Bool) (hne : digits ≠ [])
    (hdigits : ∀ c ∈ digits, c.isDigit = true) (hrest : Stops Char.isDigit rest) :
    scanExponent ('e' :: (if neg then '-' else '+') :: (digits ++ rest)) =
      (some (if neg then -(digitsValue digits : ℤ) else digitsValue digits), rest) := by
  cases neg <;> simp [scanExponent, exponentSign, spanDigits_append hdigits hrest, hne]

theorem scanExponent_stops {rest : List Char} (h : Stops goesOn rest) : scanExponent rest = (none, rest) := by
  cases rest with
  | nil => rfl
  | cons c rest =>
    have hc := stops_cons.mp h
    simp only [goesOn, Bool.or_eq_false_iff, beq_eq_false_iff_ne] at hc
    simp only [scanExponent]
    rw [if_neg fun hexp => hexp.1.elim hc.1.2 hc.2]

/-- A sign. -/
def signText (neg : Bool) : List Char := if neg then ['-'] else []

theorem scanSign_append {digits : List Char} (neg : Bool) (hne : digits ≠ [])
    (hdigits : ∀ c ∈ digits, c.isDigit = true) (rest : List Char) :
    scanSign (signText neg ++ (digits ++ rest)) = (neg, digits ++ rest) := by
  cases neg with
  | true => rfl
  | false =>
    obtain ⟨c, digits, rfl⟩ := List.exists_cons_of_ne_nil hne
    rw [signText, if_neg (by decide), List.nil_append, List.cons_append, scanSign.eq_def]
    split
    · rename_i text heq
      obtain rfl := (List.cons.inj heq).1
      exact absurd (hdigits '-' List.mem_cons_self) (by decide)
    · rfl

variable (py : JsonPlatform)

theorem toList_toString_int (i : ℤ) :
    (toString i).toList = signText (decide (i < 0)) ++ decimalDigits i.natAbs := by
  rw [Int.toString_eq_repr, Int.repr_eq_if]
  by_cases hneg : 0 ≤ i
  · rw [if_pos hneg, decide_eq_false (not_lt.mpr hneg), Nat.toList_repr, decimalDigits,
      show i.toNat = i.natAbs by omega]
    rfl
  · rw [if_neg hneg, decide_eq_true (not_le.mp hneg), String.toList_append, Nat.toList_repr, decimalDigits,
      show (-i).toNat = i.natAbs by omega]
    rfl

/-- **An integer is read back.** -/
theorem scanNumber_int {i : ℤ} (hi : i.natAbs < Json.intLimit) {rest : List Char} (hrest : Stops goesOn rest) :
    scanNumber py ((toString i).toList ++ rest) = .ok (.int i, rest) := by
  have hlength : (decimalDigits i.natAbs).length ≤ 4300 := by
    rw [Json.intLimit] at hi
    exact (Nat.length_toDigits_le_iff (by decide) (by decide)).mpr hi
  have hdigits : ∀ c ∈ decimalDigits i.natAbs, c.isDigit = true := fun c hc => isDigit_of_mem hc
  have hstop : Stops Char.isDigit rest := hrest.imp fun c hc => by simp [goesOn, hc]
  have hpoint : Stops (· == '.') rest := hrest.imp fun c hc => by simp_all [goesOn]
  rw [toList_toString_int, List.append_assoc, scanNumber, scanSign_append _ (decimalDigits_ne_nil _) hdigits]
  simp only [scanInteger_append (decimalDigits_ne_nil _) hdigits (decimalDigits_head _) hstop,
    scanFraction_stops hpoint, scanExponent_stops hrest, and_self, if_true, intOfDigits, if_pos hlength,
    digitsValue_decimalDigits, Except.map]
  congr 3
  by_cases hneg : i < 0
  · simp only [hneg, decide_true, if_true]
    omega
  · simp only [hneg, decide_false, Bool.false_eq_true, if_false]
    omega

/-- Digits with a point in them are a float. -/
theorem scanNumber_point (neg : Bool) {digits decimals rest : List Char} (hne : digits ≠ [])
    (hdigits : ∀ c ∈ digits, c.isDigit = true) (hzero : digits = ['0'] ∨ Stops (· == '0') digits)
    (hne' : decimals ≠ []) (hdecimals : ∀ c ∈ decimals, c.isDigit = true) (hrest : Stops goesOn rest) :
    scanNumber py (signText neg ++ (digits ++ '.' :: (decimals ++ rest))) =
      .ok (.float (py.readFloat (Decimal.make neg (digitsValue (digits ++ decimals)) (0 - decimals.length))),
        rest) := by
  have hstop : Stops Char.isDigit rest := hrest.imp fun c hc => by simp [goesOn, hc]
  have hpoint : Stops Char.isDigit ('.' :: (decimals ++ rest)) := stops_cons.mpr (by decide)
  rw [scanNumber, scanSign_append neg hne hdigits]
  simp only [scanInteger_append hne hdigits hzero hpoint, scanFraction_append hne' hdecimals hstop,
    scanExponent_stops hrest]
  simp

/-- Digits, perhaps a point and more of them, and an exponent are a float. -/
theorem scanNumber_exponent (neg negExp : Bool) {digits decimals expDigits rest : List Char} (hne : digits ≠ [])
    (hdigits : ∀ c ∈ digits, c.isDigit = true) (hzero : digits = ['0'] ∨ Stops (· == '0') digits)
    (hdecimals : ∀ c ∈ decimals, c.isDigit = true) (hneExp : expDigits ≠ [])
    (hexp : ∀ c ∈ expDigits, c.isDigit = true) (hrest : Stops goesOn rest) :
    scanNumber py (signText neg ++ (digits ++ ((if decimals = [] then [] else '.' :: decimals) ++
      'e' :: (if negExp then '-' else '+') :: (expDigits ++ rest)))) =
        .ok (.float (py.readFloat (Decimal.make neg (digitsValue (digits ++ decimals))
          ((if negExp then -(digitsValue expDigits : ℤ) else digitsValue expDigits) - decimals.length))),
        rest) := by
  have hstop : Stops Char.isDigit rest := hrest.imp fun c hc => by simp [goesOn, hc]
  rw [scanNumber, scanSign_append neg hne hdigits]
  by_cases hnil : decimals = []
  · subst hnil
    have hdigit : Stops Char.isDigit ('e' :: (if negExp then '-' else '+') :: (expDigits ++ rest)) :=
      stops_cons.mpr (by decide)
    have hpoint : Stops (· == '.') ('e' :: (if negExp then '-' else '+') :: (expDigits ++ rest)) :=
      stops_cons.mpr (by decide)
    simp only [if_true, List.nil_append, scanInteger_append hne hdigits hzero hdigit,
      scanFraction_stops hpoint, scanExponent_append negExp hneExp hexp hstop]
    simp
  · have hpoint : Stops Char.isDigit ('.' :: (decimals ++
        'e' :: (if negExp then '-' else '+') :: (expDigits ++ rest))) := stops_cons.mpr (by decide)
    have hdigit : Stops Char.isDigit ('e' :: (if negExp then '-' else '+') :: (expDigits ++ rest)) :=
      stops_cons.mpr (by decide)
    simp only [if_neg hnil, List.cons_append, scanInteger_append hne hdigits hzero hpoint,
      scanFraction_append hnil hdecimals hdigit, scanExponent_append negExp hneExp hexp hstop]
    simp

/-- Zeros at the end of the digits of a float are a part of its exponent. -/
theorem make_zeros (neg : Bool) {digits : ℕ} (hdigits : digits ≠ 0) (k : ℕ) (exp : ℤ) :
    Decimal.make neg (digits * 10 ^ k) exp = Decimal.make neg digits (exp + k) := by
  induction k generalizing exp with
  | zero => simp
  | succ k ih =>
    have hpos : digits * 10 ^ (k + 1) ≠ 0 := Nat.mul_ne_zero hdigits (by positivity)
    have hten : digits * 10 ^ (k + 1) = digits * 10 ^ k * 10 := by ring
    rw [Decimal.make, dif_neg hpos, dif_pos (by omega), hten, Nat.mul_div_cancel _ (by decide), ih]
    congr 1
    push_cast
    ring

/-- A float is made of its digits, with any zeros after them. -/
theorem make_repr (x : Decimal) (k : ℕ) (exp : ℤ) (hexp : x.digits ≠ 0 → exp + k = x.exp) :
    Decimal.make x.neg (x.digits * 10 ^ k) exp = x := by
  obtain ⟨neg, digits, e, hnormal⟩ := x
  by_cases hzero : digits = 0
  · subst hzero
    obtain rfl := (hnormal.resolve_left (by decide)).2
    rw [Decimal.make, dif_pos (Nat.zero_mul _)]
  · have hlast := hnormal.resolve_right fun h => hzero h.1
    rw [make_zeros neg hzero, hexp hzero, Decimal.make, dif_neg hzero, dif_neg hlast]

theorem make_self (x : Decimal) (exp : ℤ) (hexp : x.digits ≠ 0 → exp = x.exp) :
    Decimal.make x.neg x.digits exp = x := by
  have h := make_repr x 0 exp fun hx => by simpa using hexp hx
  rwa [Nat.pow_zero, Nat.mul_one] at h

/-! ## Floats -/

section Floats

variable (x : Decimal) {rest : List Char} (hrest : Stops goesOn rest)

theorem isDigit_of_mem_zeros {k : ℕ} {c : Char} (h : c ∈ List.replicate k '0') : c.isDigit = true := by
  rw [List.eq_of_mem_replicate h]
  decide

/-- Zero is written as one digit. -/
theorem length_of_zero (h : x.digits = 0) : x.exp = 0 ∧ (decimalDigits x.digits).length = 1 := by
  rw [h]
  exact ⟨(x.normal.resolve_left (by simp [h])).2, rfl⟩

/-- The other floats have no leading zeros. -/
theorem head_of_ne_zero (h : x.digits ≠ 0) : Stops (· == '0') (decimalDigits x.digits) := by
  refine (decimalDigits_head x.digits).resolve_left fun hzero => h ?_
  rw [← digitsValue_decimalDigits x.digits, hzero]
  rfl

/-- The first digits of the other floats. -/
theorem take_decimalDigits (h : x.digits ≠ 0) {k : ℕ} (hk : 0 < k) :
    (decimalDigits x.digits).take k ≠ [] ∧ Stops (· == '0') ((decimalDigits x.digits).take k) := by
  constructor
  · rw [ne_eq, List.take_eq_nil_iff, not_or]
    exact ⟨hk.ne', decimalDigits_ne_nil _⟩
  · intro c hc
    rw [List.head?_take, if_neg hk.ne'] at hc
    exact head_of_ne_zero x h c hc

include hrest

/-- `0.000ddd` -/
theorem scanNumber_small {k : ℕ} (hk : (k : ℤ) = -((decimalDigits x.digits).length + x.exp)) :
    scanNumber py (signText x.neg ++ (['0'] ++ '.' :: ((List.replicate k '0' ++ decimalDigits x.digits) ++
      rest))) = .ok (.float (py.readFloat x), rest) := by
  have hdecimals : ∀ c ∈ List.replicate k '0' ++ decimalDigits x.digits, c.isDigit = true :=
    List.forall_mem_append.mpr ⟨fun c hc => isDigit_of_mem_zeros hc, fun c hc => isDigit_of_mem hc⟩
  have hvalue : digitsValue (['0'] ++ (List.replicate k '0' ++ decimalDigits x.digits)) = x.digits := by
    rw [← List.append_assoc, show ['0'] ++ List.replicate k '0' = List.replicate (k + 1) '0' from rfl,
      digitsValue_zeros_append, digitsValue_decimalDigits]
  have hone : ∀ c ∈ ['0'], c.isDigit = true := List.forall_mem_singleton.mpr (by decide)
  have hne : List.replicate k '0' ++ decimalDigits x.digits ≠ [] :=
    List.append_ne_nil_of_right_ne_nil _ (decimalDigits_ne_nil _)
  rw [scanNumber_point py x.neg (List.cons_ne_nil _ _) hone (.inl rfl) hne hdecimals hrest, hvalue, make_self]
  intro _
  rw [List.length_append, List.length_replicate]
  push_cast
  omega

/-- `ddd000.0` -/
theorem scanNumber_large {k : ℕ} (hk : x.digits ≠ 0 → (k : ℤ) = x.exp) (hzero : x.digits = 0 → k = 0) :
    scanNumber py (signText x.neg ++ ((decimalDigits x.digits ++ List.replicate k '0') ++ '.' :: (['0'] ++
      rest))) = .ok (.float (py.readFloat x), rest) := by
  have hdigits : ∀ c ∈ decimalDigits x.digits ++ List.replicate k '0', c.isDigit = true :=
    List.forall_mem_append.mpr ⟨fun c hc => isDigit_of_mem hc, fun c hc => isDigit_of_mem_zeros hc⟩
  have hhead : decimalDigits x.digits ++ List.replicate k '0' = ['0'] ∨
      Stops (· == '0') (decimalDigits x.digits ++ List.replicate k '0') := by
    by_cases hx : x.digits = 0
    · rw [hzero hx, hx]
      exact .inl rfl
    · exact .inr ((stops_append (decimalDigits_ne_nil _)).mpr (head_of_ne_zero x hx))
  have hvalue : digitsValue (decimalDigits x.digits ++ List.replicate k '0' ++ ['0']) =
      x.digits * 10 ^ (k + 1) := by
    rw [List.append_assoc, ← List.replicate_succ', digitsValue_append_zeros, digitsValue_decimalDigits]
  have hone : ∀ c ∈ ['0'], c.isDigit = true := List.forall_mem_singleton.mpr (by decide)
  rw [scanNumber_point py x.neg (List.append_ne_nil_of_left_ne_nil (decimalDigits_ne_nil _) _) hdigits hhead
    (List.cons_ne_nil _ _) hone hrest, hvalue, make_repr x (k + 1)]
  intro hx
  rw [List.length_singleton]
  push_cast
  have := hk hx
  omega

/-- `dd.ddd` -/
theorem scanNumber_middle {k : ℕ} (hk : (k : ℤ) = (decimalDigits x.digits).length + x.exp) (hpos : 0 < k)
    (hlt : k < (decimalDigits x.digits).length) :
    scanNumber py (signText x.neg ++ ((decimalDigits x.digits).take k ++ '.' :: ((decimalDigits x.digits).drop k ++
      rest))) = .ok (.float (py.readFloat x), rest) := by
  have hx : x.digits ≠ 0 := fun hx => by
    have := (length_of_zero x hx).2
    omega
  obtain ⟨htake, hhead⟩ := take_decimalDigits x hx hpos
  rw [scanNumber_point py x.neg htake
    (fun c hc => isDigit_of_mem (List.mem_of_mem_take hc)) (.inr hhead)
    (fun h => by rw [List.drop_eq_nil_iff] at h; omega)
    (fun c hc => isDigit_of_mem (List.mem_of_mem_drop hc)) hrest, List.take_append_drop,
    digitsValue_decimalDigits, make_self]
  intro _
  rw [List.length_drop]
  omega

/-- `d.dddde+dd` -/
theorem scanNumber_scientific (hx : x.digits ≠ 0) {expDigits : List Char} (hne : expDigits ≠ [])
    (hexp : ∀ c ∈ expDigits, c.isDigit = true)
    (hvalue : digitsValue expDigits = ((decimalDigits x.digits).length + x.exp - 1).natAbs) :
    scanNumber py (signText x.neg ++ ((decimalDigits x.digits).take 1 ++
      ((if (decimalDigits x.digits).drop 1 = [] then [] else '.' :: (decimalDigits x.digits).drop 1) ++
        'e' :: (if decide ((decimalDigits x.digits).length + x.exp - 1 < 0) then '-' else '+') ::
          (expDigits ++ rest)))) = .ok (.float (py.readFloat x), rest) := by
  have hlen : 0 < (decimalDigits x.digits).length := List.length_pos_of_ne_nil (decimalDigits_ne_nil _)
  obtain ⟨htake, hhead⟩ := take_decimalDigits x hx Nat.one_pos
  rw [scanNumber_exponent py x.neg _ htake
    (fun c hc => isDigit_of_mem (List.mem_of_mem_take hc)) (.inr hhead)
    (fun c hc => isDigit_of_mem (List.mem_of_mem_drop hc)) hne hexp hrest, List.take_append_drop,
    digitsValue_decimalDigits, hvalue, make_self]
  intro _
  rw [List.length_drop]
  by_cases hneg : ((decimalDigits x.digits).length : ℤ) + x.exp - 1 < 0
  · rw [if_pos (decide_eq_true hneg)]
    omega
  · rw [if_neg (by simpa using hneg)]
    omega

/-- **A float is read back.** -/
theorem scanNumber_float : scanNumber py (x.repr ++ rest) = .ok (.float (py.readFloat x), rest) := by
  have hlen : 0 < (decimalDigits x.digits).length := List.length_pos_of_ne_nil (decimalDigits_ne_nil _)
  rw [Decimal.repr]
  simp only [toList_toString]
  rw [← signText]
  by_cases hpoint : -4 < ((decimalDigits x.digits).length : ℤ) + x.exp ∧
      ((decimalDigits x.digits).length : ℤ) + x.exp ≤ 16
  · rw [if_pos hpoint]
    by_cases hsmall : ((decimalDigits x.digits).length : ℤ) + x.exp ≤ 0
    · rw [if_pos hsmall]
      have h := scanNumber_small py x hrest (Int.toNat_of_nonneg (by omega))
      simpa using h
    rw [if_neg hsmall]
    by_cases hlarge : ((decimalDigits x.digits).length : ℤ) ≤ (decimalDigits x.digits).length + x.exp
    · rw [if_pos hlarge]
      have h := scanNumber_large py x hrest
        (k := (((decimalDigits x.digits).length : ℤ) + x.exp - (decimalDigits x.digits).length).toNat)
        (fun _ => by omega) (fun hx => by have := (length_of_zero x hx).1; omega)
      simpa using h
    · rw [if_neg hlarge]
      have h := scanNumber_middle py x hrest (Int.toNat_of_nonneg (by omega)) (by omega) (by omega)
      simpa using h
  · rw [if_neg hpoint]
    have hx : x.digits ≠ 0 := fun hx => by
      have := length_of_zero x hx
      omega
    have hdrop : (decimalDigits x.digits).length ≤ 1 ↔ (decimalDigits x.digits).drop 1 = [] :=
      List.drop_eq_nil_iff.symm
    generalize he : decimalDigits (((decimalDigits x.digits).length : ℤ) + x.exp - 1).natAbs = e
    have hne : e ≠ [] := he ▸ decimalDigits_ne_nil _
    have hdigits : ∀ c ∈ e, c.isDigit = true := fun c hc => isDigit_of_mem (he ▸ hc)
    have hvalue := digitsValue_decimalDigits (((decimalDigits x.digits).length : ℤ) + x.exp - 1).natAbs
    rw [he] at hvalue
    -- An exponent of one digit is written with a zero before it.
    generalize hpad : (if e.length < 2 then '0' :: e else e) = padded
    have hspec : padded ≠ [] ∧ (∀ c ∈ padded, c.isDigit = true) ∧ digitsValue padded =
        (((decimalDigits x.digits).length : ℤ) + x.exp - 1).natAbs := by
      rw [← hpad]
      split_ifs
      · exact ⟨by simp, List.forall_mem_cons.mpr ⟨by decide, hdigits⟩,
          (digitsValue_zeros_append e 1).trans hvalue⟩
      · exact ⟨hne, hdigits, hvalue⟩
    have h := scanNumber_scientific py x hrest hx hspec.1 hspec.2.1 hspec.2.2
    simpa [hdrop] using h

end Floats

end Rpr
