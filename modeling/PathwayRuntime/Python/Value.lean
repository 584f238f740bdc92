import Mathlib.Data.List.Sort
import Mathlib.Data.Int.Notation
import Mathlib.Algebra.Ring.Nat

/-!
# Python values, JSON values and canonical JSON

The part of Python's data model the runtime computes with.

* `PyText`: a `str`; `strip`: `str.strip`.
* `PyFloat`: a `float`, a finite one by the shortest decimal that reads back as it; `PyFloat.repr`.
* `Json`: what `json.loads` returns; `Json.canonical`: the characters of
  `json.dumps(sort_keys=True, separators=(",", ":"), ensure_ascii=False)`, absent when it or
  `.encode("utf-8")` raises.
* `PyValue`: an arbitrary payload, before anything has been checked about it.
-/

set_option autoImplicit false

namespace Rpr

/-! ## Text -/

/-- A Python `str`: one that UTF-8 can encode, or one with a lone surrogate, by code points. -/
inductive PyText : Type
  | utf8 (s : String)
  | lone (codes : List ℕ) (h : ∃ c ∈ codes, 0xD800 ≤ c ∧ c < 0xE000)
  deriving DecidableEq

instance : Coe String PyText := ⟨PyText.utf8⟩

namespace PyText

@[simp] theorem beq_utf8 (a b : String) : (utf8 a == utf8 b) = (a == b) := by
  rw [Bool.eq_iff_iff]
  simp

/-- `len(s)`. -/
def length : PyText → ℕ
  | utf8 s => s.length
  | lone codes _ => codes.length

/-- `s or default`. -/
def orElse (s : Option PyText) (default : PyText) : PyText :=
  match s with
  | some t => if t.length = 0 then default else t
  | none => default

end PyText

/-- The characters `str.isspace` accepts. -/
def isSpace (c : Char) : Bool :=
  let n := c.toNat
  (9 ≤ n && n ≤ 13) || (28 ≤ n && n ≤ 32) || n == 0x85 || n == 0xA0 || n == 0x1680 ||
    (0x2000 ≤ n && n ≤ 0x200A) || n == 0x2028 || n == 0x2029 || n == 0x202F || n == 0x205F ||
    n == 0x3000

/-- `s.strip()`. -/
def strip (s : String) : String :=
  String.ofList (((s.toList.dropWhile isSpace).reverse.dropWhile isSpace).reverse)

/-- `not s.strip()`. -/
def isBlank (s : String) : Bool := strip s == ""

/-- `repr(s)` of a text without quotes, backslashes and unprintable characters. -/
def pyRepr (s : String) : String := "'" ++ s ++ "'"

/-! ## Numbers -/

/-- A finite float, `± digits · 10 ^ exp`, by the shortest `digits` that read back as it. -/
structure Decimal where
  neg : Bool
  digits : ℕ
  exp : ℤ
  normal : digits % 10 ≠ 0 ∨ digits = 0 ∧ exp = 0
  deriving DecidableEq

/-- A Python `float`. -/
inductive PyFloat : Type
  | finite (x : Decimal)
  | inf (neg : Bool)
  | nan
  deriving DecidableEq

/-- `math.isfinite(x)`. -/
def PyFloat.isFinite : PyFloat → Bool
  | .finite _ => true
  | _ => false

/-- `repr(x)` of a finite float: positional while the point stays within 16 digits. -/
def Decimal.repr (x : Decimal) : List Char :=
  let s := (toString x.digits).toList
  let n : ℤ := s.length
  let point : ℤ := n + x.exp
  let sign := if x.neg then ['-'] else []
  if -4 < point ∧ point ≤ 16 then
    if point ≤ 0 then sign ++ ['0', '.'] ++ List.replicate (-point).toNat '0' ++ s
    else if n ≤ point then sign ++ s ++ List.replicate (point - n).toNat '0' ++ ['.', '0']
    else sign ++ s.take point.toNat ++ ['.'] ++ s.drop point.toNat
  else
    let e := (toString (point - 1).natAbs).toList
    sign ++ s.take 1 ++ (if s.length ≤ 1 then [] else '.' :: s.drop 1) ++ ['e'] ++
      [if point - 1 < 0 then '-' else '+'] ++ (if e.length < 2 then '0' :: e else e)

/-- The number `json.dumps` writes for a float. -/
def PyFloat.repr : PyFloat → List Char
  | .finite x => x.repr
  | .inf neg => (if neg then ['-'] else []) ++ "Infinity".toList
  | .nan => "NaN".toList

/-! ## JSON values -/

/-- What `json.loads` returns. -/
inductive Json : Type
  | null
  | bool (b : Bool)
  | int (i : ℤ)
  | float (x : PyFloat)
  | str (s : PyText)
  | arr (items : List Json)
  | obj (fields : List (PyText × Json))

namespace Json

/-- The JSON string of an encodable text. -/
def text (s : String) : Json := .str (.utf8 s)

/-- `value.get(key)` on a decoded object. -/
def get? (key : PyText) : Json → Option Json
  | .obj fields => fields.lookup key
  | _ => none

/-- `bool(value)`. -/
def truthy : Json → Bool
  | .null => false
  | .bool b => b
  | .int i => i != 0
  | .float (.finite x) => x.digits != 0
  | .float _ => true
  | .str s => s.length != 0
  | .arr items => !items.isEmpty
  | .obj fields => !fields.isEmpty

/-- The lower-case hexadecimal digit of `n < 16`. -/
def hexDigit (n : ℕ) : Char := if n < 10 then Char.ofNat (48 + n) else Char.ofNat (87 + n)

/-- One character of a JSON string. -/
def escape (c : Char) : List Char :=
  if c = '"' then ['\\', '"']
  else if c = '\\' then ['\\', '\\']
  else if c = '\n' then ['\\', 'n']
  else if c = '\r' then ['\\', 'r']
  else if c = '\t' then ['\\', 't']
  else if c.toNat = 8 then ['\\', 'b']
  else if c.toNat = 12 then ['\\', 'f']
  else if c.toNat < 32 then ['\\', 'u', '0', '0', hexDigit (c.toNat / 16), hexDigit (c.toNat % 16)]
  else [c]

/-- A JSON string literal; a lone surrogate cannot be encoded. -/
def quote : PyText → Option (List Char)
  | .utf8 s => some ('"' :: s.toList.flatMap escape ++ ['"'])
  | .lone _ _ => none

/-- The members of an array or object, separated by commas. -/
def commas : List (List Char) → List Char
  | [] => []
  | [x] => x
  | x :: xs => x ++ ',' :: commas xs

/-- A member of an object, ready to be sorted by its key. -/
structure Member where
  key : String
  value : List Char

/-- `sort_keys=True`: by code points. -/
def Member.le (a b : Member) : Bool := a.key ≤ b.key

/-- The object literal of already rendered members. -/
def renderObject (members : List Member) : List Char :=
  '{' :: commas ((members.insertionSort fun a b => a.le b = true).map fun m =>
    '"' :: m.key.toList.flatMap escape ++ ['"', ':'] ++ m.value) ++ ['}']

/-- Integers of more than 4300 digits have no decimal text. -/
def intLimit : ℕ := 10 ^ 4300

mutual
/-- The characters of the canonical form. -/
def render : Json → Option (List Char)
  | .null => some "null".toList
  | .bool b => some (if b then "true".toList else "false".toList)
  | .int i => if i.natAbs < intLimit then some (toString i).toList else none
  | .float x => some x.repr
  | .str s => quote s
  | .arr items => (renderItems items).map fun xs => '[' :: commas xs ++ [']']
  | .obj fields => (renderFields fields).map renderObject

def renderItems : List Json → Option (List (List Char))
  | [] => some []
  | x :: xs => (render x).bind fun c => (renderItems xs).map (c :: ·)

def renderFields : List (PyText × Json) → Option (List Member)
  | [] => some []
  | (.utf8 k, v) :: fields => (render v).bind fun c => (renderFields fields).map (⟨k, c⟩ :: ·)
  | (.lone _ _, _) :: _ => none
end

/-- The characters of the canonical JSON text, absent when it cannot be written or encoded. -/
def canonical (j : Json) : Option (List Char) := render j

/-- `len(text.encode("utf-8"))`. -/
def encodedSize (text : List Char) : ℕ := (text.map Char.utf8Size).sum

end Json

/-! ## Arbitrary payloads -/

/-- A key of a Python mapping: a `str`, or anything else by its `str()`. -/
inductive PyKey : Type
  | str (s : PyText)
  | other (form : PyText)
  deriving DecidableEq

/-- An acyclic Python value. A foreign object is given by its type name and its `str()`. -/
inductive PyValue : Type
  | none
  | bool (b : Bool)
  | int (i : ℤ)
  | float (x : PyFloat)
  | str (s : PyText)
  | list (items : List PyValue)
  | tuple (items : List PyValue)
  | dict (fields : List (PyKey × PyValue))
  | object (typeName : String) (form : PyText)

/-- A Python mapping. -/
abbrev PyDict : Type := List (PyKey × PyValue)

namespace PyValue

/-- The Python value of an encodable text. -/
def text (s : String) : PyValue := .str (.utf8 s)

/-- `None` or a text. -/
def optText : Option PyText → PyValue
  | some s => .str s
  | Option.none => .none

/-- A dict with literal keys. -/
def ofFields (fields : List (String × PyValue)) : PyValue :=
  .dict (fields.map fun f => (.str (.utf8 f.1), f.2))

mutual
/-- A decoded JSON value, as the Python value it is. -/
def ofJson : Json → PyValue
  | .null => .none
  | .bool b => .bool b
  | .int i => .int i
  | .float x => .float x
  | .str s => .str s
  | .arr items => .list (ofJsonItems items)
  | .obj fields => .dict (ofJsonFields fields)

def ofJsonItems : List Json → List PyValue
  | [] => []
  | x :: xs => ofJson x :: ofJsonItems xs

def ofJsonFields : List (PyText × Json) → PyDict
  | [] => []
  | (k, v) :: fields => (.str k, ofJson v) :: ofJsonFields fields
end

end PyValue

end Rpr
