import PathwayRuntime.Python.Exception
import PathwayRuntime.Python.Number

/-!
# Errors, the platform, and `dict(value)`

* `PyError`: what the runtime raises.
* `Platform`: the library functions of Python the runtime calls.
* `Json.asItems`: `dict(value)`, of an object or of a sequence of pairs; its keys may then be no texts.
-/

set_option autoImplicit false

namespace Rpr

/-- The exceptions of the runtime, with their messages. `encodeError` is the `ValueError` of
`json.dumps(value).encode("utf-8")`. -/
inductive PyError : Type
  | keyError (key : String)
  | valueError (message : String)
  | typeError (message : String)
  | encodeError
  | runtimeError (message : String)
  | integrityError (message : String)
  | authorityError (message : String)
  | invalidTransition (message : String)
  | evidenceLimitError (message : String)
  | attemptConflictError (message : String)
  | attemptFingerprintError (message : String)
  | attemptResultPersistenceError (message : String)
  | idempotencyConflictError (message : String)
  | tenantBoundaryError (message : String)
  | foreign (typeName : String)
  deriving DecidableEq

/-- The library functions the runtime calls: the SHA-256 hex digest of the encoding of a text, given
by its characters, `str.casefold`, and `str()` of a decoded JSON value. -/
structure Platform where
  sha256 : List Char → String
  casefold : PyText → PyText
  str : Json → String
  casefold_lower : ∀ s : String, (∀ c ∈ s.toList, 'a' ≤ c ∧ c ≤ 'z' ∨ c = '_') → casefold s = s
  str_text : ∀ s : String, str (Json.text s) = s

/-! ## `dict(value)` of a decoded value -/

namespace Json

/-- The texts `str` is iterated by. -/
def chars : PyText → List Json
  | .utf8 s => s.toList.map fun c => .text (String.singleton c)
  | .lone codes _ => codes.map fun c => .str (PyText.ofCodes [c])

/-- A pair of an update sequence, by its index in it. -/
def pair (i : ℕ) (value : Json) : Except PyError (Json × Json) :=
  let items : Option (List Json) := match value with
    | .arr items => some items
    | .str s => some (chars s)
    | .obj fields => some (fields.map fun f => .str f.1)
    | _ => none
  match items with
  | some [key, item] => .ok (key, item)
  | some items => .error (.valueError ("dictionary update sequence element #" ++ toString i ++ " has length " ++
      toString items.length ++ "; 2 is required"))
  | none => .error (.typeError ("cannot convert dictionary update sequence element #" ++ toString i ++
      " to a sequence"))

/-- Keys are hashable. -/
def hashable : Json → Bool
  | .arr _ | .obj _ => false
  | _ => true

/-- `a == b`, of keys; `json.loads` reads one `nan`. -/
def sameKey : Json → Json → Bool
  | .null, .null => true
  | .str s, .str t => s == t
  | .float .nan, .float .nan => true
  | a, b => a.sameNumber b

/-- `items[key] = value`. -/
def setItem (key value : Json) : List (Json × Json) → List (Json × Json)
  | [] => [(key, value)]
  | (k, v) :: items => if k.sameKey key then (k, value) :: items else (k, v) :: setItem key value items

/-- The pairs of an update sequence, set one after another. -/
def update (i : ℕ) : List Json → List (Json × Json) → Except PyError (List (Json × Json))
  | [], items => .ok items
  | value :: values, items => do
    let (key, item) ← value.pair i
    if key.hashable then update (i + 1) values (setItem key item items)
    else .error (.typeError "unhashable type")

/-- `dict(value)`. -/
def asItems : Json → Except PyError (List (Json × Json))
  | .obj fields => .ok (fields.map fun f => (.str f.1, f.2))
  | .arr values => update 0 values []
  | .str s => update 0 (chars s) []
  | _ => .error (.typeError "object is not iterable")

/-- The items, when all keys are texts. -/
def textFields : List (Json × Json) → Option (List (PyText × Json))
  | [] => some []
  | (.str key, value) :: items => (textFields items).map ((key, value) :: ·)
  | _ :: _ => none

/-- The items of an object are texts with their values. -/
theorem textFields_asItems (fields : List (PyText × Json)) :
    textFields (fields.map fun f => (.str f.1, f.2)) = some fields := by
  induction fields with
  | nil => rfl
  | cons f fields ih => rw [List.map_cons, textFields, ih, Option.map_some]

end Json

end Rpr
