import PathwayRuntime.Model.System

/-!
# What redaction hides

* `SameButHidden`: two payloads that differ only in what is stored under sensitive keys.
* `redactValue_hides`: redaction makes the same of them, and leaves the same budget for what follows.
* **`redact_hides`**: redaction returns one output for both, or raises one error.
-/

set_option autoImplicit false

namespace Rpr

section Hidden

variable (py : Platform) (p : RedactionPolicy)

mutual
/-- The values differ only under keys that are hidden, at any depth. -/
def SameButHidden : PyValue → PyValue → Prop
  | .list items, .list items' => SameButHiddenItems items items'
  | .tuple items, .tuple items' => SameButHiddenItems items items'
  | .dict fields, .dict fields' => SameButHiddenFields fields fields'
  | v, v' => v = v'

def SameButHiddenItems : List PyValue → List PyValue → Prop
  | [], [] => True
  | item :: items, item' :: items' => SameButHidden item item' ∧ SameButHiddenItems items items'
  | _, _ => False

/-- The same keys in one order, and values that differ where they are hidden. -/
def SameButHiddenFields : List (PyKey × PyValue) → List (PyKey × PyValue) → Prop
  | [], [] => True
  | (key, item) :: fields, (key', item') :: fields' =>
    key = key' ∧ (p.sensitive py key.form = false → SameButHidden item item') ∧ SameButHiddenFields fields fields'
  | _, _ => False
end

end Hidden

section Hides

open RedactionPolicy

variable {py : Platform} {p : RedactionPolicy}

mutual
/-- **Redaction makes the same of both**, and leaves the same budget. -/
theorem redactValue_hides (v : PyValue) {v' : PyValue} (h : SameButHidden py p v v') (depth b : ℤ) :
    redactValue py p depth v b = redactValue py p depth v' b := by
  match v, v' with
  | .list items, .list items' => simp only [redactValue, redactItems_hides items h]
  | .tuple items, .tuple items' => simp only [redactValue, redactItems_hides items h]
  | .dict fields, .dict fields' => simp only [redactValue, redactFields_hides fields h]
  | .none, _ | .bool _, _ | .int _, _ | .float _, _ | .str _, _ | .object _ _, _ =>
    obtain rfl := h
    rfl

theorem redactItems_hides (items : List PyValue) {items' : List PyValue} (h : SameButHiddenItems py p items items')
    (depth b : ℤ) : redactItems py p depth items b = redactItems py p depth items' b := by
  match items, items' with
  | [], [] => rfl
  | item :: items, item' :: items' =>
    simp only [redactItems, redactValue_hides item h.1, redactItems_hides items h.2]

theorem redactFields_hides (fields : List (PyKey × PyValue)) {fields' : List (PyKey × PyValue)}
    (h : SameButHiddenFields py p fields fields') (depth : ℤ) (output : List (PyText × Json)) (b : ℤ) :
    redactFields py p depth fields output b = redactFields py p depth fields' output b := by
  match fields, fields' with
  | [], [] => rfl
  | (key, item) :: fields, (key', item') :: fields' =>
    obtain ⟨rfl, hitem, hfields⟩ := h
    rw [redactFields, redactFields]
    cases hs : p.sensitive py key.form with
    | true =>
      simp only [if_pos]
      exact redactFields_hides fields hfields depth _ b
    | false => simp only [redactValue_hides item (hitem hs), redactFields_hides fields hfields]
end

/-- **Redaction hides sensitive values**: payloads that differ only under sensitive keys have one output, or one
error. -/
theorem redact_hides {v v' : PyValue} (h : SameButHidden py p v v') : p.redact py v = p.redact py v' := by
  rw [redact, redact, redactValue_hides v h]

end Hides

/-- A request with a header, whose token is hidden in a list and in a tuple. -/
def headerPayload (token : PyValue) : PyValue :=
  .ofFields [("headers", .list [.ofFields [("token", token), ("n", .int 1)]]),
    ("id", .tuple [.ofFields [("token", token)]])]

theorem redact_hides_headerPayload :
    RedactionPolicy.default.redact .sample (headerPayload (.text "a")) =
      RedactionPolicy.default.redact .sample (headerPayload (.list [.int 1, .int 2])) := by
  have htoken : RedactionPolicy.default.sensitive .sample "token" = true := by decide
  have hhidden : RedactionPolicy.default.sensitive .sample "token" = false → False := fun h => by simp [htoken] at h
  exact redact_hides ⟨rfl, fun _ => ⟨⟨rfl, fun h => (hhidden h).elim, rfl, fun _ => rfl, trivial⟩, trivial⟩, rfl,
    fun _ => ⟨⟨rfl, fun h => (hhidden h).elim, trivial⟩, trivial⟩, trivial⟩

end Rpr
