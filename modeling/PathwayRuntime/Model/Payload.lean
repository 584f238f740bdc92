import PathwayRuntime.Model.Mapping
import PathwayRuntime.Python.Measure

/-!
# The text of a dict

* `dumpsItems`: `json.dumps(..., sort_keys=True)` of a dict whose keys may be no texts.
-/

set_option autoImplicit false

namespace Rpr

namespace Json

/-- The key `json.dumps` writes. -/
def keyText : Json → Option PyText
  | .str s => some s
  | .null => some "null"
  | .bool b => some (if b then "true" else "false")
  | .int i => if i.natAbs < intLimit then some (.utf8 (toString i)) else none
  | .float x => some (.utf8 (String.ofList x.repr))
  | _ => none

/-- `sorted(items)`, for keys that are not all texts: numbers are compared with numbers only. -/
def sortedItems (items : List (Json × Json)) : Except PyError (List (Json × Json)) :=
  if items.length ≤ 1 then .ok items
  else if items.all fun item => item.1.int?.isSome || item.1 matches .float _ then
    .ok (items.insertionSort fun a b => a.1.numberLe b.1 = true)
  else .error (.typeError "'<' not supported between instances of the keys")

/-- The items with the keys that are written. -/
def writtenFields : List (Json × Json) → Option (List (PyText × Json))
  | [] => some []
  | (key, value) :: items => do
    let key ← key.keyText
    let fields ← writtenFields items
    some ((key, value) :: fields)

/-- The text of a dict: none when it cannot be written or encoded. -/
def dumpsItems (items : List (Json × Json)) : Except PyError (Option (List Char)) :=
  match textFields items with
  | some fields => .ok (canonical (.obj fields))
  | none => do
    let sorted ← sortedItems items
    .ok do
      let fields ← writtenFields sorted
      let members ← renderFields fields
      some (bracket '{' '}' (members.map Member.text))

end Json

end Rpr
