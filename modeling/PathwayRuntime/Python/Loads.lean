import PathwayRuntime.Python.Dumps

/-!
# `json.loads`

`json.loads(text, object_pairs_hook=..., parse_constant=...)`: a scanner reads one value at the
beginning of a text and returns the text after it.

* `scanString`, `scanNumber`, `scanWord`: the values without members.
* `scanArray`, `scanObject`: the others, given a scanner for their members.
* `scanOnce`: a value in which so many containers may be nested; `loads`: the value of a text.
-/

set_option autoImplicit false

namespace Rpr

/-- Why no value was read: `JSONDecodeError`, or something else was raised. -/
inductive ScanError : Type
  | syntactic
  | raised (e : PyException)

/-- What was read, and the text after it. -/
abbrev Scanned (α : Type) : Type := Except ScanError (α × List Char)

/-- The hooks of `json.loads`. -/
structure JsonHooks where
  objectPairs : List (PyText × Json) → Except PyException Json
  parseConstant : String → Except PyException Json

/-- The text after white space. -/
def skipSpace (text : List Char) : List Char :=
  text.dropWhile fun c => c == ' ' || c == '\t' || c == '\n' || c == '\r'

/-! ## Strings -/

/-- The value of a hexadecimal digit. -/
def hexValue (c : Char) : Option ℕ :=
  if '0' ≤ c ∧ c ≤ '9' then some (c.toNat - 48)
  else if 'a' ≤ c ∧ c ≤ 'f' then some (c.toNat - 87)
  else if 'A' ≤ c ∧ c ≤ 'F' then some (c.toNat - 55)
  else none

/-- The code point of `\uXXXX`. -/
def hexCode (a b c d : Char) : Option ℕ := do
  let a ← hexValue a
  let b ← hexValue b
  let c ← hexValue c
  let d ← hexValue d
  some (((a * 16 + b) * 16 + c) * 16 + d)

/-- The code point of a backslash and this character. -/
def unescape (c : Char) : Option ℕ :=
  [('"', 34), ('\\', 92), ('/', 47), ('b', 8), ('f', 12), ('n', 10), ('r', 13), ('t', 9)].lookup c

/-- One more code point before those that were read. -/
def Scanned.cons {α : Type} (x : α) (r : Scanned (List α)) : Scanned (List α) :=
  r.map fun p => (x :: p.1, p.2)

/-- The code points of a string after its opening quote. -/
def scanString : List Char → Scanned (List ℕ)
  | [] => .error .syntactic
  | c :: text =>
    if c = '"' then .ok ([], text)
    else if c = '\\' then
      match text with
      | [] => .error .syntactic
      | e :: text =>
        if e = 'u' then
          match text with
          | a :: b :: c :: d :: text =>
            match hexCode a b c d with
            | some code => (scanString text).cons code
            | none => .error .syntactic
          | _ => .error .syntactic
        else
          match unescape e with
          | some code => (scanString text).cons code
          | none => .error .syntactic
    else if c.toNat < 32 then .error .syntactic
    else (scanString text).cons c.toNat

/-- Two escapes that form a surrogate pair are one character. -/
def joinSurrogates : List ℕ → List ℕ
  | high :: low :: codes =>
    if 0xD800 ≤ high ∧ high < 0xDC00 ∧ 0xDC00 ≤ low ∧ low < 0xE000 then
      (0x10000 + (high - 0xD800) * 1024 + (low - 0xDC00)) :: joinSurrogates codes
    else high :: joinSurrogates (low :: codes)
  | codes => codes

/-- A string after its opening quote. -/
def scanText (text : List Char) : Scanned PyText :=
  (scanString text).map fun p => (PyText.ofCodes (joinSurrogates p.1), p.2)

/-! ## Numbers -/

/-- The float with these digits, without zeros at their end. -/
def Decimal.make (neg : Bool) (digits : ℕ) (exp : ℤ) : Decimal :=
  if hzero : digits = 0 then ⟨neg, 0, 0, .inr ⟨rfl, rfl⟩⟩
  else if h : digits % 10 = 0 then Decimal.make neg (digits / 10) (exp + 1)
  else ⟨neg, digits, exp, .inl h⟩
termination_by digits
decreasing_by omega

/-- Digits, and the text after them. -/
def spanDigits (text : List Char) : List Char × List Char :=
  (text.takeWhile Char.isDigit, text.dropWhile Char.isDigit)

/-- The value of digits. -/
def digitsValue (digits : List Char) : ℕ := Nat.ofDigitChars 10 digits 0

/-- A sign. -/
def scanSign : List Char → Bool × List Char
  | '-' :: text => (true, text)
  | text => (false, text)

/-- The integer part of a number: no zeros before other digits. -/
def scanInteger : List Char → Option (List Char × List Char)
  | '0' :: text => some (['0'], text)
  | text => if (spanDigits text).1 = [] then none else some (spanDigits text)

/-- A point with digits, if the text goes on so. -/
def scanFraction : List Char → Option (List Char) × List Char
  | '.' :: text => if (spanDigits text).1 = [] then (none, '.' :: text)
    else (some (spanDigits text).1, (spanDigits text).2)
  | text => (none, text)

/-- The sign of an exponent. -/
def exponentSign : List Char → Bool × List Char
  | '-' :: text => (true, text)
  | '+' :: text => (false, text)
  | text => (false, text)

/-- An exponent, if the text goes on so. -/
def scanExponent : List Char → Option ℤ × List Char
  | e :: text =>
    let (neg, rest) := exponentSign text
    if (e = 'e' ∨ e = 'E') ∧ (spanDigits rest).1 ≠ [] then
      let n : ℤ := digitsValue (spanDigits rest).1
      (some (if neg then -n else n), (spanDigits rest).2)
    else (none, e :: text)
  | [] => (none, [])

/-- What `int(digits)` raises for more than 4300 digits. -/
def strToIntError (count : ℕ) : PyException :=
  .valueError (PyText.utf8 ("Exceeds the limit (4300 digits) for integer string conversion: value has " ++
    toString count ++ " digits; use sys.set_int_max_str_digits() to increase the limit"))

/-- `int(text)`. -/
def intOfDigits (neg : Bool) (digits : List Char) : Except ScanError Json :=
  if digits.length ≤ 4300 then
    let n : ℤ := digitsValue digits
    .ok (.int (if neg then -n else n))
  else .error (.raised (strToIntError digits.length))

section Values

variable (py : JsonPlatform) (hooks : JsonHooks)

/-- A number. -/
def scanNumber (text : List Char) : Scanned Json :=
  let (neg, text) := scanSign text
  match scanInteger text with
  | none => .error .syntactic
  | some (digits, text) =>
    let (fraction, text) := scanFraction text
    let (exponent, text) := scanExponent text
    if fraction = none ∧ exponent = none then (intOfDigits neg digits).map (·, text)
    else
      let decimals := fraction.getD []
      .ok (.float (py.readFloat (Decimal.make neg (digitsValue (digits ++ decimals))
        (exponent.getD 0 - decimals.length))), text)

/-- The words, with their values. -/
def words : List (String × Except PyException Json) :=
  [("null", .ok .null), ("true", .ok (.bool true)), ("false", .ok (.bool false)),
    ("NaN", hooks.parseConstant "NaN"), ("Infinity", hooks.parseConstant "Infinity"),
    ("-Infinity", hooks.parseConstant "-Infinity")]

/-- A word, if the text begins with one. -/
def scanWord (text : List Char) : Option (Scanned Json) :=
  (words hooks).findSome? fun (word, value) =>
    if word.toList.isPrefixOf text then
      some ((value.mapError ScanError.raised).map (·, text.drop word.length))
    else none

/-! ## Arrays and objects -/

/-- The items of an array; every turn reads a character. -/
def scanItems (scan : List Char → Scanned Json) : ℕ → List Char → Scanned (List Json)
  | 0, _ => .error .syntactic
  | turns + 1, text =>
    match scan text with
    | .error e => .error e
    | .ok (item, text) =>
      match skipSpace text with
      | ',' :: text => (scanItems scan turns (skipSpace text)).cons item
      | ']' :: text => .ok ([item], text)
      | _ => .error .syntactic

/-- An array after its bracket. -/
def scanArray (scan : List Char → Scanned Json) (text : List Char) : Scanned (List Json) :=
  match skipSpace text with
  | ']' :: text => .ok ([], text)
  | text => scanItems scan text.length text

/-- The members of an object; every turn reads a character. -/
def scanMembers (scan : List Char → Scanned Json) : ℕ → List Char → Scanned (List (PyText × Json))
  | turns + 1, '"' :: text =>
    match scanText text with
    | .error e => .error e
    | .ok (key, text) =>
      match skipSpace text with
      | ':' :: text =>
        match scan (skipSpace text) with
        | .error e => .error e
        | .ok (value, text) =>
          match skipSpace text with
          | ',' :: text => (scanMembers scan turns (skipSpace text)).cons (key, value)
          | '}' :: text => .ok ([(key, value)], text)
          | _ => .error .syntactic
      | _ => .error .syntactic
  | _, _ => .error .syntactic

/-- An object after its brace. -/
def scanObject (scan : List Char → Scanned Json) (text : List Char) : Scanned (List (PyText × Json)) :=
  match skipSpace text with
  | '}' :: text => .ok ([], text)
  | text => scanMembers scan text.length text

/-- One value, its members read by the scanner given, if they may be nested. -/
def scanValue (nested : Option (List Char → Scanned Json)) : List Char → Scanned Json
  | '"' :: text => (scanText text).map fun p => (.str p.1, p.2)
  | '[' :: text =>
    match nested with
    | none => .error (.raised recursionError)
    | some scan => (scanArray scan text).map fun p => (.arr p.1, p.2)
  | '{' :: text =>
    match nested with
    | none => .error (.raised recursionError)
    | some scan =>
      match scanObject scan text with
      | .error e => .error e
      | .ok (pairs, text) => ((hooks.objectPairs pairs).mapError ScanError.raised).map (·, text)
  | text => (scanWord hooks text).getD (scanNumber py text)

/-- `scan_once`, when so many containers may still be nested. -/
def scanOnce : ℕ → List Char → Scanned Json
  | 0 => scanValue py hooks none
  | frames + 1 => scanValue py hooks (some (scanOnce frames))

/-- `JSONDecodeError`. -/
def jsonDecodeError (text : List Char) : PyException :=
  .ofClass "JSONDecodeError" ["ValueError"] (py.decodeError text)

/-- `json.loads(text)`. -/
def loads (text : List Char) : Except PyException Json :=
  if text.head? = some '\uFEFF' then .error (jsonDecodeError py text)
  else
    match scanOnce py hooks py.scannerFrames (skipSpace text) with
    | .error .syntactic => .error (jsonDecodeError py text)
    | .error (.raised e) => .error e
    | .ok (value, rest) => if skipSpace rest = [] then .ok value else .error (jsonDecodeError py text)

end Values

end Rpr
