import PathwayRuntime.Python.Spaced
import PathwayRuntime.Python.Utf8

/-!
# Built-in functions of given values

What an executor calls on the values it was given, by the definitions of `json` and `repr`.

* `PyValue.truthy`, `PyValue.string`, `PyValue.mapping`: `bool`, `str` and `dict`.
* `PyValue.json?`: the value `json.dumps` writes; `PyValue.dumpsAs`: `json.dumps` with a writer of it.
* **`json?_of_listed`**: what is a decoded value but for its tuples is written as that value.
-/

set_option autoImplicit false

namespace Rpr

namespace PyValue

/-- `bool(v)`: a foreign object is true. -/
def truthy : PyValue → Bool
  | .none => false
  | .bool b => (Json.bool b).truthy
  | .int i => (Json.int i).truthy
  | .float x => (Json.float x).truthy
  | .str s => (Json.str s).truthy
  | .list items | .tuple items => !items.isEmpty
  | .dict fields => !fields.isEmpty
  | .object _ _ => true

/-- `str(v)`. -/
def string (lib : ReprLibrary) : PyValue → Except PyException PyText
  | .str s => .ok s
  | .object _ form => .ok form
  | v => (v.repr lib).map fun text => .utf8 (String.ofList text)

/-- `dict(v)` of a mapping. -/
def mapping : PyValue → Except PyException PyDict
  | .dict fields => .ok fields
  | _ => .error (.typeError "object is not iterable")

section Json

-- `default(v)` of a foreign object
variable (default : PyText → Option Json)

mutual
/-- The value `json.dumps` writes: lists for tuples, and texts for keys. -/
def json? : PyValue → Option Json
  | .none => some .null
  | .bool b => some (.bool b)
  | .int i => some (.int i)
  | .float x => some (.float x)
  | .str s => some (.str s)
  | .list items | .tuple items => (jsonItems? items).map .arr
  | .dict fields => (jsonFields? fields).map .obj
  | .object _ form => default form

def jsonItems? : List PyValue → Option (List Json)
  | [] => some []
  | v :: items => (json? v).bind fun j => (jsonItems? items).map (j :: ·)

def jsonFields? : PyDict → Option (List (PyText × Json))
  | [] => some []
  | (.str key, v) :: fields => (json? v).bind fun j => (jsonFields? fields).map ((key, j) :: ·)
  | (.other _, _) :: _ => Option.none
end

/-- `json.dumps(v, default=default)`, encoded, by what writes a value. -/
def dumpsAs (write : Json → Option (List Char)) (v : PyValue) : Except PyException (List Char) := do
  let j ← (v.json? default).elim (.error (.typeError "Object is not JSON serializable")) .ok
  (write j).elim (.error unicodeEncodeError) .ok

variable {default}

mutual
/-- **What is a decoded value but for its tuples is written as that value.** -/
theorem json?_of_listed (v : PyValue) {j : Json} (h : v.listed = .ofJson j) : v.json? default = some j := by
  match v, j with
  | .none, .null => rfl
  | .bool _, .bool _ | .int _, .int _ | .float _, .float _ | .str _, .str _ => cases h; rfl
  | .list items, .arr js | .tuple items, .arr js =>
    rw [json?, jsonItems?_of_listed items (list.inj h)]
    rfl
  | .dict fields, .obj pairs =>
    rw [json?, jsonFields?_of_listed fields (dict.inj h)]
    rfl
  | .object _ _, j => cases j <;> cases h

theorem jsonItems?_of_listed (items : List PyValue) {js : List Json} (h : listedItems items = ofJsonItems js) :
    jsonItems? default items = some js := by
  match items, js with
  | [], [] => rfl
  | v :: items, j :: js =>
    obtain ⟨hv, hitems⟩ := List.cons.inj h
    rw [jsonItems?, json?_of_listed v hv, jsonItems?_of_listed items hitems]
    rfl

theorem jsonFields?_of_listed (fields : PyDict) {pairs : List (PyText × Json)}
    (h : listedFields fields = ofJsonFields pairs) : jsonFields? default fields = some pairs := by
  match fields, pairs with
  | [], [] => rfl
  | (key, v) :: fields, (k, j) :: pairs =>
    obtain ⟨hf, hfields⟩ := List.cons.inj h
    obtain ⟨rfl, hv⟩ := Prod.mk.inj hf
    rw [jsonFields?, json?_of_listed v hv, jsonFields?_of_listed fields hfields]
    rfl
end

theorem dumpsAs_eq_ok {write : Json → Option (List Char)} {v : PyValue} {text : List Char} :
    v.dumpsAs default write = .ok text ↔ ∃ j, v.json? default = some j ∧ write j = some text := by
  have helim : ∀ {α : Type} {o : Option α} {e : PyException} {a : α},
      (o.elim (.error e) .ok : Except PyException α) = .ok a ↔ o = some a := fun {_ o _ _} => by
    cases o <;> simp
  rw [dumpsAs, except_bind_eq_ok]
  exact exists_congr fun j => and_congr helim helim

end Json

end PyValue

end Rpr
