import Mathlib.Data.List.Forall2
import PathwayRuntime.Python.Sorted

/-!
# Texts by code points, and exceptions

* `PyText.ofCodes`, `PyText.append`, `PyText.strip`.
* `PyException`: an exception with the names of its classes, so that `except` clauses can be chosen
  by them; `escalate`: the clause that lets some exceptions pass and renames the others.
* `forall₂_of_mapM_ok`: the results of a loop.
* `PyDict.get?`, `PyDict.getItem`.
-/

set_option autoImplicit false

namespace Rpr

namespace PyText

/-- Surrogate code points have no UTF-8 form. -/
def isSurrogate (c : ℕ) : Prop := 0xD800 ≤ c ∧ c < 0xE000

instance (c : ℕ) : Decidable (isSurrogate c) := inferInstanceAs (Decidable (_ ∧ _))

/-- The text of a list of code points. -/
def ofCodes (codes : List ℕ) : PyText :=
  if h : ∃ c ∈ codes, isSurrogate c then lone codes h
  else utf8 (String.ofList (codes.map Char.ofNat))

/-- `s + t`. -/
def append : PyText → PyText → PyText
  | utf8 s, utf8 t => utf8 (s ++ t)
  | s, t => ofCodes (s.codes ++ t.codes)

instance : Append PyText := ⟨append⟩

/-- White space, by code point. -/
def isSpaceCode (c : ℕ) : Bool := isSpace (Char.ofNat c)

/-- `s.strip()`. -/
def strip : PyText → PyText
  | utf8 s => utf8 (Rpr.strip s)
  | lone codes _ =>
    ofCodes (((codes.dropWhile isSpaceCode).reverse.dropWhile isSpaceCode).reverse)

end PyText

/-! ## Exceptions -/

/-- An exception: its class, the classes this one derives from, and its `str()`. -/
structure PyException where
  name : String
  bases : List String
  text : PyText
  deriving DecidableEq

namespace PyException

/-- `isinstance(e, C)`, by the name of the class. -/
def isA (cls : String) (e : PyException) : Bool := e.name = cls || e.bases.contains cls

/-- `isinstance(e, (C₁, C₂, …))`. -/
def isAny (classes : List String) (e : PyException) : Bool := classes.any fun cls => e.isA cls

/-- An exception that is no `BaseException` only: `except Exception` catches it. -/
def ofClass (name : String) (bases : List String) (text : PyText) : PyException :=
  ⟨name, bases ++ ["Exception", "BaseException"], text⟩

def valueError (text : PyText) : PyException := ofClass "ValueError" [] text

def typeError (text : PyText) : PyException := ofClass "TypeError" [] text

def keyError (text : PyText) : PyException := ofClass "KeyError" ["LookupError"] text

def attributeError (text : PyText) : PyException := ofClass "AttributeError" [] text

def runtimeError (text : PyText) : PyException := ofClass "RuntimeError" [] text

/-- `f"{type(e).__name__}: {e}"`. -/
def describe (e : PyException) : PyText := PyText.utf8 (e.name ++ ": ") ++ e.text

/-- What is raised after `except passed: raise` and `except Exception as e: raise other(e)`. -/
def escalate (passed : List String) (other : PyException → PyException) (e : PyException) :
    PyException :=
  if e.isAny passed then e else if e.isA "Exception" then other e else e

end PyException

/-- What `text.encode("utf-8")` raises on a lone surrogate. -/
def unicodeEncodeError : PyException :=
  .ofClass "UnicodeEncodeError" ["UnicodeError", "ValueError"]
    "'utf-8' codec can't encode the text: surrogates not allowed"

/-- A sequence that returns: its parts returned. -/
theorem except_bind_eq_ok {ε α β : Type} {x : Except ε α} {f : α → Except ε β} {r : β} :
    (x >>= f) = .ok r ↔ ∃ a, x = .ok a ∧ f a = .ok r := by
  cases x with
  | error e => exact ⟨fun h => (nomatch h), fun ⟨_, h, _⟩ => (nomatch h)⟩
  | ok a => exact ⟨fun h => ⟨a, rfl, h⟩, fun ⟨_, h, hf⟩ => Except.ok.inj h ▸ hf⟩

/-- A sequence that raises: the first part raised, or the second after it. -/
theorem except_bind_eq_error {ε α β : Type} {x : Except ε α} {f : α → Except ε β} {e : ε} :
    (x >>= f) = .error e ↔ x = .error e ∨ ∃ a, x = .ok a ∧ f a = .error e := by
  cases x with
  | error e' => exact ⟨fun h => .inl (Except.error.inj h ▸ rfl), fun h =>
      (h.resolve_right fun ⟨_, h, _⟩ => (nomatch h)) ▸ rfl⟩
  | ok a => exact ⟨fun h => .inr ⟨a, rfl, h⟩, fun h => (h.resolve_left fun h => (nomatch h)).elim
      fun a' h => Except.ok.inj h.1 ▸ h.2⟩

/-! ## Loops -/

/-- The results of a loop, one for each item. -/
theorem forall₂_of_mapM_ok {α β : Type} {f : α → Except PyException β} {xs : List α} {ys : List β}
    (h : xs.mapM f = .ok ys) : List.Forall₂ (fun x y => f x = .ok y) xs ys := by
  induction xs generalizing ys with
  | nil =>
    obtain rfl := Except.ok.inj h
    exact .nil
  | cons x xs ih =>
    rw [List.mapM_cons] at h
    obtain ⟨z, hz, h⟩ := except_bind_eq_ok.mp h
    obtain ⟨zs, hzs, h⟩ := except_bind_eq_ok.mp h
    obtain rfl := Except.ok.inj h
    exact .cons hz (ih hzs)

theorem exists_right_of_forall₂ {α β : Type} {R : α → β → Prop} {xs : List α} {ys : List β}
    (h : List.Forall₂ R xs ys) {x : α} (hx : x ∈ xs) : ∃ y ∈ ys, R x y := by
  induction h with
  | nil => exact absurd hx List.not_mem_nil
  | @cons a b xs ys hab _ ih =>
    rcases List.mem_cons.mp hx with rfl | hx
    · exact ⟨b, List.mem_cons_self, hab⟩
    · obtain ⟨y, hy, hxy⟩ := ih hx
      exact ⟨y, List.mem_cons_of_mem b hy, hxy⟩

theorem exists_left_of_forall₂ {α β : Type} {R : α → β → Prop} {xs : List α} {ys : List β}
    (h : List.Forall₂ R xs ys) {y : β} (hy : y ∈ ys) : ∃ x ∈ xs, R x y :=
  exists_right_of_forall₂ (List.Forall₂.flip (R := fun y x => R x y) h) hy

/-! ## Mappings -/

/-- `mapping.get(key)`. -/
def PyDict.get? (fields : PyDict) (key : String) : Option PyValue := fields.lookup (.str (.utf8 key))

/-- `mapping[key]`. -/
def PyDict.getItem (fields : PyDict) (key : String) : Except PyException PyValue :=
  match fields.get? key with
  | some value => .ok value
  | none => .error (.keyError ("'" ++ key ++ "'"))

/-- `value == text`. -/
def PyValue.isText (text : String) : PyValue → Bool
  | .str s => s == .utf8 text
  | _ => false

end Rpr
