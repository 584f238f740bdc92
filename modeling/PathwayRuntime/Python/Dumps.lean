import PathwayRuntime.Python.Exception

/-!
# `json.dumps`

`json.dumps(value, ensure_ascii=False, allow_nan=False, separators=(",", ":"))`, with the members of
every object in the order they have.

* `JsonPlatform`: what `json` takes from the interpreter.
* `writeValue`: the text of a value.
-/

set_option autoImplicit false

namespace Rpr

/-- What `json` takes from the interpreter: the containers it may still nest, the text it writes for a
key that is no text, the float of a decimal number, `repr(s)`, and what a `JSONDecodeError` says of a
text. -/
structure JsonPlatform where
  encoderFrames : ℕ
  scannerFrames : ℕ
  keyText : PyText → Except PyException PyText
  readFloat : Decimal → PyFloat
  repr : PyText → PyText
  decodeError : List Char → PyText
  keyText_error : ∀ form e, keyText form = .error e → e.isAny ["TypeError", "ValueError"] = true

/-- `RecursionError`. -/
def recursionError : PyException :=
  .ofClass "RecursionError" ["RuntimeError"] "maximum recursion depth exceeded"

/-- What `str(n)` raises for an integer of more than 4300 digits. -/
def intToStrError : PyException :=
  .valueError (PyText.utf8 ("Exceeds the limit (4300 digits) for integer string conversion; " ++
    "use sys.set_int_max_str_digits() to increase the limit"))

/-- A text that was written, absent when it has a lone surrogate. -/
abbrev Written : Type := Option (List Char)

/-- What is written for an array or an object. -/
def bracket (opening closing : Char) (members : List (List Char)) : List Char :=
  opening :: Json.commas members ++ [closing]

/-- A member of an object. -/
def memberText (key value : List Char) : List Char := key ++ ':' :: value

variable (py : JsonPlatform)

/-- The literal of a key. -/
def writeKey : PyKey → Except PyException Written
  | .str s => .ok (Json.quote s)
  | .other form => (py.keyText form).map Json.quote

mutual
/-- The text of a value, when so many containers may still be nested. -/
def writeValue (frames : ℕ) : PyValue → Except PyException Written
  | .none => .ok (some "null".toList)
  | .bool b => .ok (some (if b then "true".toList else "false".toList))
  | .int i => if i.natAbs < Json.intLimit then .ok (some (toString i).toList) else .error intToStrError
  | .float x =>
    if x.isFinite then .ok (some x.repr)
    else .error (.valueError "Out of range float values are not JSON compliant")
  | .str s => .ok (Json.quote s)
  | .list items | .tuple items =>
    match frames with
    | 0 => .error recursionError
    | frames + 1 => do
      let xs ← writeItems frames items
      .ok (xs.map (bracket '[' ']'))
  | .dict fields =>
    match frames with
    | 0 => .error recursionError
    | frames + 1 => do
      let xs ← writeMembers frames fields
      .ok (xs.map (bracket '{' '}'))
  | .object typeName _ =>
    .error (.typeError (PyText.utf8 ("Object of type " ++ typeName ++ " is not JSON serializable")))

def writeItems (frames : ℕ) : List PyValue → Except PyException (Option (List (List Char)))
  | [] => .ok (some [])
  | item :: items => do
    let x ← writeValue frames item
    let xs ← writeItems frames items
    .ok (x.bind fun x => xs.map (x :: ·))

def writeMembers (frames : ℕ) : List (PyKey × PyValue) → Except PyException (Option (List (List Char)))
  | [] => .ok (some [])
  | (key, value) :: fields => do
    let k ← writeKey py key
    let v ← writeValue frames value
    let xs ← writeMembers frames fields
    .ok (k.bind fun k => v.bind fun v => xs.map (memberText k v :: ·))
end

/-- `json.dumps(message)`. -/
def dumps (message : PyDict) : Except PyException Written := writeValue py py.encoderFrames (.dict message)

end Rpr
