import PathwayRuntime.Python.Canonical
import PathwayRuntime.Python.Literal

/-!
# The `repr` of a value

* `PyValue.repr`: the characters of `repr(v)`.
* `PyValue.HasLiteral`: no infinity, no `nan`, no lone surrogate, no integer of more than 4300 digits, no foreign
  object; `exists_repr`.
* `Unique`: a text ends where the value it is written for ends; `unique_repr`.
* **`repr_inj`**: a literal determines its value, down to the order of dicts.
-/

set_option autoImplicit false

namespace Rpr

/-- What `repr` asks elsewhere: which code points beyond ASCII `str.isprintable` accepts, and the `repr` of a key
that is no text and of a foreign object. -/
structure ReprLibrary where
  isPrintable : ℕ → Bool
  key : PyText → Except PyException (List Char)
  object : String → PyText → Except PyException (List Char)

/-- Every code point beyond ASCII is printed, and no foreign object. -/
def ReprLibrary.sample : ReprLibrary where
  isPrintable _ := true
  key form := .ok (form.literal fun _ => true)
  object typeName _ := .error (.typeError typeName)

/-- `repr(x)`. -/
def PyFloat.literal : PyFloat → List Char
  | .finite x => x.repr
  | .inf neg => (if neg then ['-'] else []) ++ ['i', 'n', 'f']
  | .nan => ['n', 'a', 'n']

/-- The texts after the first, each behind `", "`. -/
def tailed (texts : List (List Char)) : List Char := texts.flatMap fun text => ',' :: ' ' :: text

/-- `", ".join(texts)`. -/
def joined : List (List Char) → List Char
  | [] => []
  | text :: texts => text ++ tailed texts

/-- What ends a tuple: one of one item has a comma. -/
def tupleEnd (length : ℕ) : List Char := if length = 1 then [',', ')'] else [')']

section Repr

variable (lib : ReprLibrary)

def reprKey : PyKey → Except PyException (List Char)
  | .str s => .ok (s.literal lib.isPrintable)
  | .other form => lib.key form

namespace PyValue

mutual
/-- `repr(v)`. -/
def repr : PyValue → Except PyException (List Char)
  | .none => .ok "None".toList
  | .bool b => .ok (if b then "True".toList else "False".toList)
  | .int i => if i.natAbs < Json.intLimit then .ok (toString i).toList else .error intToStrError
  | .float x => .ok x.literal
  | .str s => .ok (s.literal lib.isPrintable)
  | .list items => do .ok ('[' :: joined (← reprItems items) ++ [']'])
  | .tuple items => do .ok ('(' :: joined (← reprItems items) ++ tupleEnd items.length)
  | .dict fields => do .ok ('\x7b' :: joined (← reprFields fields) ++ ['\x7d'])
  | .object typeName form => lib.object typeName form

def reprItems : List PyValue → Except PyException (List (List Char))
  | [] => .ok []
  | item :: items => do
    let text ← repr item
    .ok (text :: (← reprItems items))

def reprFields : PyDict → Except PyException (List (List Char))
  | [] => .ok []
  | (key, value) :: fields => do
    let key ← reprKey lib key
    let text ← repr value
    .ok ((key ++ ':' :: ' ' :: text) :: (← reprFields fields))
end

/-- What `repr` writes as a literal expression. -/
def HasLiteral : PyValue → Prop
  | .int i => i.natAbs < Json.intLimit
  | .float x => x.isFinite = true
  | .str s => s.IsUtf8
  | .dict fields => ∀ key ∈ fields.map Prod.fst, ∃ s : String, key = .str (.utf8 s)
  | .object _ _ => False
  | _ => True

end PyValue

end Repr

/-! ## Where a text ends -/

/-- What may follow a value. -/
def EndsText (text : List Char) : Prop := ∀ c ∈ text.head?, c ∈ [',', ')', ']', '\x7d']

/-- What may follow the last item. -/
def Closes (text : List Char) : Prop := EndsText text ∧ ¬ [',', ' '] <+: text ∧ text ≠ []

/-- A text of `R` ends where what it is written for ends. -/
def Unique {α : Type} (R : α → List Char → Prop) (a : α) : Prop :=
  ∀ b s t text text', R a s → R b t → EndsText text → EndsText text' → s ++ text = t ++ text' → a = b ∧ text = text'

theorem ends_tailed (xs : List (List Char)) {text : List Char} (h : Closes text) : EndsText (tailed xs ++ text) := by
  cases xs with
  | nil => exact h.1
  | cons x xs =>
    intro c hc
    obtain rfl := Option.some.inj hc
    exact List.mem_cons_self

/-- The items behind the first. -/
theorem tailed_inj {α : Type} {R : α → List Char → Prop} {as bs : List α} {xs ys : List (List Char)}
    {text text' : List Char} (hunique : ∀ a ∈ as, Unique R a) (hxs : List.Forall₂ R as xs)
    (hys : List.Forall₂ R bs ys) (hclose : Closes text) (hclose' : Closes text')
    (h : tailed xs ++ text = tailed ys ++ text') : as = bs ∧ text = text' := by
  induction hxs generalizing bs ys with
  | nil =>
    cases hys with
    | nil => exact ⟨rfl, h⟩
    | cons hb hys => exact absurd ⟨_, h.symm⟩ hclose.2.1
  | @cons a x as xs ha hxs ih =>
    cases hys with
    | nil => exact absurd ⟨_, h⟩ hclose'.2.1
    | @cons b y bs ys hb hys =>
      obtain ⟨hfirst, hrest⟩ := List.forall_mem_cons.mp hunique
      simp only [tailed, List.flatMap_cons, List.cons_append, List.cons.injEq, true_and, List.append_assoc] at h
      obtain ⟨rfl, htail⟩ := hfirst b x y _ _ ha hb (ends_tailed xs hclose) (ends_tailed ys hclose') h
      obtain ⟨rfl, htext⟩ := ih hrest hys htail
      exact ⟨rfl, htext⟩

/-- Items between brackets. -/
theorem joined_inj {α : Type} {R : α → List Char → Prop} {as bs : List α} {xs ys : List (List Char)}
    {text text' : List Char} (hbegins : ∀ a s, R a s → ¬ EndsText s) (hunique : ∀ a ∈ as, Unique R a)
    (hxs : List.Forall₂ R as xs) (hys : List.Forall₂ R bs ys) (hclose : Closes text) (hclose' : Closes text')
    (h : joined xs ++ text = joined ys ++ text') : as = bs ∧ text = text' := by
  have hends : ∀ {a : α} {s more text : List Char}, R a s → Closes text → text ≠ s ++ more := by
    rintro a s more text ha hclose rfl
    refine hbegins a s ha fun c hc => hclose.1 c ?_
    rw [List.head?_append_of_ne_nil s (by rintro rfl; cases hc)]
    exact hc
  cases hxs with
  | nil =>
    cases hys with
    | nil => exact ⟨rfl, h⟩
    | cons hb hys => exact absurd (h.trans (List.append_assoc _ _ _)) (hends hb hclose)
  | @cons a x as xs ha hxs =>
    cases hys with
    | nil => exact absurd (h.symm.trans (List.append_assoc _ _ _)) (hends ha hclose')
    | @cons b y bs ys hb hys =>
      obtain ⟨hfirst, hrest⟩ := List.forall_mem_cons.mp hunique
      rw [joined, joined, List.append_assoc, List.append_assoc] at h
      obtain ⟨rfl, htail⟩ := hfirst b x y _ _ ha hb (ends_tailed xs hclose) (ends_tailed ys hclose') h
      obtain ⟨rfl, htext⟩ := tailed_inj hrest hxs hys hclose hclose' htail
      exact ⟨rfl, htext⟩

/-! ## Numbers and constants -/

/-- What a number is written with. -/
def isNumberChar (c : Char) : Bool := c.isDigit || c ∈ ['-', '+', '.', 'e']

/-- What numbers and constants are written with. -/
def isWordChar (c : Char) : Bool := c.isAlphanum || c ∈ ['-', '+', '.']

theorem isWordChar_of_number {c : Char} (h : isNumberChar c = true) : isWordChar c = true := by
  simp only [isNumberChar, Bool.or_eq_true, decide_eq_true_eq, List.mem_cons, List.not_mem_nil, or_false] at h
  rcases h with h | rfl | rfl | rfl | rfl
  · simp [isWordChar, Char.isAlphanum, h]
  all_goals decide

/-- A word ends at what is no word character. -/
theorem words_inj {s t text text' : List Char} (hs : ∀ c ∈ s, isWordChar c = true) (ht : ∀ c ∈ t, isWordChar c = true)
    (hends : EndsText text) (hends' : EndsText text') (h : s ++ text = t ++ text') : s = t ∧ text = text' := by
  have hno : ∀ {c : Char} {more text : List Char}, isWordChar c = true → EndsText text → text ≠ c :: more := by
    rintro c more text hc hends rfl
    have hmem := hends c rfl
    simp only [List.mem_cons, List.not_mem_nil, or_false] at hmem
    rcases hmem with rfl | rfl | rfl | rfl <;> exact absurd hc (by decide)
  induction s generalizing t with
  | nil =>
    cases t with
    | nil => exact ⟨rfl, h⟩
    | cons c t => exact absurd h (hno (ht c List.mem_cons_self) hends)
  | cons c s ih =>
    cases t with
    | nil => exact absurd h.symm (hno (hs c List.mem_cons_self) hends')
    | cons d t =>
      obtain ⟨hcd, htail⟩ := List.cons.inj h
      obtain ⟨hst, htext⟩ := ih (fun c hc => hs c (List.mem_cons_of_mem _ hc))
        (fun c hc => ht c (List.mem_cons_of_mem _ hc)) htail
      exact ⟨by rw [hcd, hst], htext⟩

theorem isNumberChar_signText (neg : Bool) : ∀ c ∈ signText neg, isNumberChar c = true :=
  List.all_eq_true.mp (by cases neg <;> decide)

theorem isNumberChar_digits (n : ℕ) : ∀ c ∈ (toString n).toList, isNumberChar c = true := by
  intro c hc
  rw [toList_toString] at hc
  simp [isNumberChar, isDigit_of_mem hc]

theorem isNumberChar_int (i : ℤ) : ∀ c ∈ (toString i).toList, isNumberChar c = true := by
  rw [toList_toString_int]
  intro c hc
  rcases List.mem_append.mp hc with hc | hc
  · exact isNumberChar_signText _ c hc
  · exact isNumberChar_digits i.natAbs c (by rwa [toList_toString])

theorem isNumberChar_float (x : Decimal) : ∀ c ∈ x.repr, isNumberChar c = true := by
  have hsign := isNumberChar_signText x.neg
  have hdigits := isNumberChar_digits x.digits
  have htake : ∀ k, ∀ c ∈ (toString x.digits).toList.take k, isNumberChar c = true :=
    fun k c hc => hdigits c (List.mem_of_mem_take hc)
  have hdrop : ∀ k, ∀ c ∈ (toString x.digits).toList.drop k, isNumberChar c = true :=
    fun k c hc => hdigits c (List.mem_of_mem_drop hc)
  have hzeros : ∀ k, ∀ c ∈ List.replicate k '0', isNumberChar c = true := fun k c hc => by
    rw [List.eq_of_mem_replicate hc]
    rfl
  rw [Decimal.repr, ← signText]
  simp only []
  split_ifs <;>
    · simp only [List.forall_mem_append, List.forall_mem_cons, List.not_mem_nil, IsEmpty.forall_iff, implies_true,
        and_true]
      repeat' apply And.intro
      all_goals
        with_reducible first | exact hsign | exact hzeros _ | exact hdigits | exact htake _ | exact hdrop _ |
          exact isNumberChar_digits _ | decide

/-! ## Values -/

namespace PyValue

variable {lib : ReprLibrary}

/-- A number or a constant. -/
def IsWord : PyValue → Prop
  | .none | .bool _ | .int _ => True
  | .float x => x.isFinite = true
  | _ => False

/-- The constants, with their texts. -/
def constants : List (PyValue × List Char) :=
  [(.none, "None".toList), (.bool true, "True".toList), (.bool false, "False".toList)]

theorem constants_inj {v w : PyValue} {s : List Char} (h : (v, s) ∈ constants) (h' : (w, s) ∈ constants) : v = w := by
  simp only [constants, List.mem_cons, Prod.mk.injEq, List.not_mem_nil, or_false] at h h'
  rcases h with ⟨rfl, rfl⟩ | ⟨rfl, rfl⟩ | ⟨rfl, rfl⟩ <;> rcases h' with ⟨rfl, h⟩ | ⟨rfl, h⟩ | ⟨rfl, h⟩ <;>
    first | rfl | exact absurd h (by decide)

theorem constants_words {v : PyValue} {s : List Char} (h : (v, s) ∈ constants) :
    s ≠ [] ∧ (∀ c ∈ s, isWordChar c = true) ∧ ¬ ∀ c ∈ s, isNumberChar c = true := by
  simp only [constants, List.mem_cons, Prod.mk.injEq, List.not_mem_nil, or_false] at h
  rcases h with ⟨-, rfl⟩ | ⟨-, rfl⟩ | ⟨-, rfl⟩ <;>
    exact ⟨by decide, List.all_eq_true.mp (by decide), fun h => absurd (List.all_eq_true.mpr h) (by decide)⟩

attribute [local irreducible] Json.intLimit in
/-- A word is a constant or the canonical text of a number. -/
theorem repr_word {v : PyValue} {s : List Char} (hv : v.IsWord) (h : v.repr lib = .ok s) :
    (v, s) ∈ constants ∨ s ≠ [] ∧ (∀ c ∈ s, isNumberChar c = true) ∧
      ∃ j : Json, v = .ofJson j ∧ j.sortKeys = j ∧ j.UniqueKeys ∧ Json.canonical j = some s := by
  cases v with
  | none =>
    obtain rfl := Except.ok.inj h
    exact .inl List.mem_cons_self
  | bool b =>
    obtain rfl := Except.ok.inj h
    cases b
    · exact .inl (List.mem_cons_of_mem _ (List.mem_cons_of_mem _ List.mem_cons_self))
    · exact .inl (List.mem_cons_of_mem _ List.mem_cons_self)
  | int i =>
    rw [repr] at h
    split_ifs at h with hi
    obtain rfl := Except.ok.inj h
    refine .inr ⟨?_, isNumberChar_int i, .int i, rfl, rfl, trivial, if_pos hi⟩
    rw [toList_toString_int]
    exact List.append_ne_nil_of_right_ne_nil _ (decimalDigits_ne_nil _)
  | float x =>
    obtain rfl := Except.ok.inj h
    cases x with
    | finite x =>
      refine .inr ⟨?_, isNumberChar_float x, .float (.finite x), rfl, rfl, trivial, rfl⟩
      obtain ⟨digits, more, hne, -, hrepr⟩ := repr_digits x
      rw [PyFloat.literal, hrepr]
      exact List.append_ne_nil_of_right_ne_nil _ (List.append_ne_nil_of_left_ne_nil hne _)
    | inf neg => cases hv
    | nan => cases hv
  | str _ | list _ | tuple _ | dict _ | object _ _ => exact hv.elim

theorem isWordChar_repr {v : PyValue} {s : List Char} (hv : v.IsWord) (h : v.repr lib = .ok s) :
    s ≠ [] ∧ ∀ c ∈ s, isWordChar c = true := by
  rcases repr_word hv h with hconstant | ⟨hne, hnumber, -⟩
  · exact ⟨(constants_words hconstant).1, (constants_words hconstant).2.1⟩
  · exact ⟨hne, fun c hc => isWordChar_of_number (hnumber c hc)⟩

/-- A word determines its value. -/
theorem word_eq {v w : PyValue} {s : List Char} (hv : v.IsWord) (hw : w.IsWord) (h : v.repr lib = .ok s)
    (h' : w.repr lib = .ok s) : v = w := by
  rcases repr_word hv h with hconstant | ⟨-, hnumber, j, rfl, hj, hu, hc⟩ <;>
    rcases repr_word hw h' with hconstant' | ⟨-, hnumber', j', rfl, hj', hu', hc'⟩
  · exact constants_inj hconstant hconstant'
  · exact absurd hnumber' (constants_words hconstant).2.2
  · exact absurd hnumber (constants_words hconstant').2.2
  · rw [← hj, Json.canonical_inj hc hc' hu hu', hj']

/-! ### What a text begins with -/

/-- Each kind of value begins with a character of its own. -/
def Opens : PyValue → Char → Prop
  | .str _, c => c = '\'' ∨ c = '"'
  | .list _, c => c = '['
  | .tuple _, c => c = '('
  | .dict _, c => c = '\x7b'
  | _, c => isWordChar c = true

theorem exists_opens {v : PyValue} {s : List Char} (hv : v.HasLiteral) (h : v.repr lib = .ok s) :
    ∃ c text, s = c :: text ∧ v.Opens c := by
  have hword : v.IsWord → ∃ c text, s = c :: text ∧ isWordChar c = true := by
    intro hword
    obtain ⟨hne, hs⟩ := isWordChar_repr hword h
    obtain ⟨c, text, rfl⟩ := List.exists_cons_of_ne_nil hne
    exact ⟨c, text, rfl, hs c List.mem_cons_self⟩
  cases v with
  | none => exact hword trivial
  | bool b => exact hword trivial
  | int i => exact hword trivial
  | float x => exact hword hv
  | str t =>
    obtain rfl := Except.ok.inj h
    exact ⟨_, _, rfl, t.quoteOf_eq⟩
  | list items | tuple items | dict items =>
    obtain ⟨texts, -, h⟩ := except_bind_eq_ok.mp h
    obtain rfl := Except.ok.inj h
    exact ⟨_, _, rfl, rfl⟩
  | object t form => exact hv.elim

theorem not_ends_repr {v : PyValue} {s : List Char} (hv : v.HasLiteral) (h : v.repr lib = .ok s) : ¬ EndsText s := by
  obtain ⟨c, text, rfl, hopens⟩ := exists_opens hv h
  intro hends
  have hmem := hends c rfl
  simp only [List.mem_cons, List.not_mem_nil, or_false] at hmem
  cases v with
  | str _ => rcases hmem with rfl | rfl | rfl | rfl <;> exact absurd hopens (by simp [Opens])
  | none | bool _ | int _ | float _ | object _ _ | list _ | tuple _ | dict _ =>
    rcases hmem with rfl | rfl | rfl | rfl <;>
      first
        | exact absurd (show isWordChar _ = true from hopens) (by decide)
        | exact absurd (show _ = _ from hopens) (by decide)

/-! ### What a text is written for -/

/-- The literal of a value. -/
def WrittenAs (lib : ReprLibrary) (v : PyValue) (s : List Char) : Prop := v.Everywhere HasLiteral ∧ v.repr lib = .ok s

/-- The literal of a member of a dict. -/
def MemberWrittenAs (lib : ReprLibrary) (f : PyKey × PyValue) (s : List Char) : Prop :=
  ∃ (key : String) (text : List Char), f.1 = .str (.utf8 key) ∧ WrittenAs lib f.2 text ∧
    s = (PyText.utf8 key).literal lib.isPrintable ++ ':' :: ' ' :: text

theorem everywhere_self {P : PyValue → Prop} {v : PyValue} (h : v.Everywhere P) : P v := by
  cases v with
  | list _ | tuple _ | dict _ => exact h.1
  | none | bool _ | int _ | float _ | str _ | object _ _ => exact h

theorem WrittenAs.not_ends (v : PyValue) (s : List Char) (h : WrittenAs lib v s) : ¬ EndsText s :=
  not_ends_repr (everywhere_self h.1) h.2

theorem MemberWrittenAs.not_ends (f : PyKey × PyValue) (s : List Char) (h : MemberWrittenAs lib f s) :
    ¬ EndsText s := by
  obtain ⟨key, text, -, -, rfl⟩ := h
  intro hends
  have hmem := hends (PyText.utf8 key).quoteOf rfl
  rcases (PyText.utf8 key).quoteOf_eq with h | h <;>
    · rw [h] at hmem
      exact absurd hmem (by decide)

theorem forall₂_reprItems {items : List PyValue} {texts : List (List Char)} (hitems : EverywhereItems HasLiteral items)
    (h : reprItems lib items = .ok texts) : List.Forall₂ (WrittenAs lib) items texts := by
  induction items generalizing texts with
  | nil =>
    obtain rfl := Except.ok.inj h
    exact .nil
  | cons item items ih =>
    obtain ⟨text, htext, h⟩ := except_bind_eq_ok.mp h
    obtain ⟨texts, htexts, h⟩ := except_bind_eq_ok.mp h
    obtain rfl := Except.ok.inj h
    exact .cons ⟨hitems.1, htext⟩ (ih hitems.2 htexts)

theorem forall₂_reprFields {fields : PyDict} {texts : List (List Char)}
    (hkeys : ∀ key ∈ fields.map Prod.fst, ∃ s : String, key = .str (.utf8 s))
    (hfields : EverywhereFields HasLiteral fields) (h : reprFields lib fields = .ok texts) :
    List.Forall₂ (MemberWrittenAs lib) fields texts := by
  induction fields generalizing texts with
  | nil =>
    obtain rfl := Except.ok.inj h
    exact .nil
  | cons f fields ih =>
    obtain ⟨key, v⟩ := f
    obtain ⟨⟨s, hs⟩, hrest⟩ := List.forall_mem_cons.mp hkeys
    obtain rfl : key = .str (.utf8 s) := hs
    obtain ⟨text, htext, h⟩ := except_bind_eq_ok.mp h
    obtain ⟨value, hvalue, h⟩ := except_bind_eq_ok.mp h
    obtain ⟨texts, htexts, h⟩ := except_bind_eq_ok.mp h
    obtain rfl := Except.ok.inj h
    obtain rfl := Except.ok.inj htext
    exact .cons ⟨s, value, rfl, ⟨hfields.1, hvalue⟩, rfl⟩ (ih hrest hfields.2 htexts)

/-- A member ends where its value ends. -/
theorem unique_member {f : PyKey × PyValue} (h : Unique (WrittenAs lib) f.2) : Unique (MemberWrittenAs lib) f := by
  obtain ⟨k, v⟩ := f
  rintro ⟨k', w⟩ _ _ text text' ⟨key, value, rfl, hvalue, rfl⟩ ⟨key', value', rfl, hvalue', rfl⟩ hends hends' heq
  rw [List.append_assoc, List.append_assoc] at heq
  obtain ⟨rfl, htail⟩ := literal_inj heq
  simp only [List.cons_append, List.cons.injEq, true_and] at htail
  obtain ⟨rfl, htext⟩ := h w value value' text text' hvalue hvalue' hends hends' htail
  exact ⟨rfl, htext⟩

theorem closes_singleton {c : Char} (hc : c ∈ [')', ']', '\x7d']) (text : List Char) : Closes (c :: text) := by
  refine ⟨fun d hd => ?_, fun h => ?_, List.cons_ne_nil _ _⟩
  · rw [← Option.some.inj hd]
    exact List.mem_cons_of_mem _ hc
  · obtain ⟨more, hmore⟩ := h
    rw [← (List.cons.inj hmore).1] at hc
    exact absurd hc (by decide)

theorem closes_tupleEnd (length : ℕ) (text : List Char) : Closes (tupleEnd length ++ text) := by
  unfold tupleEnd
  split_ifs
  · refine ⟨fun d hd => ?_, fun h => ?_, List.cons_ne_nil _ _⟩
    · rw [← Option.some.inj hd]
      exact List.mem_cons_self
    · obtain ⟨more, hmore⟩ := h
      exact absurd (List.cons.inj (List.cons.inj hmore).2).1 (by decide)
  · exact closes_singleton List.mem_cons_self text

/-- Texts that begin alike are written for values of one kind. -/
theorem opens_of_append {v w : PyValue} {s t text text' : List Char} (h : WrittenAs lib v s) (h' : WrittenAs lib w t)
    (heq : s ++ text = t ++ text') : ∃ c, v.Opens c ∧ w.Opens c := by
  obtain ⟨c, s, rfl, hv⟩ := exists_opens (everywhere_self h.1) h.2
  obtain ⟨d, t, rfl, hw⟩ := exists_opens (everywhere_self h'.1) h'.2
  obtain rfl := (List.cons.inj heq).1
  exact ⟨c, hv, hw⟩

theorem isWord_of_opens {w : PyValue} {c : Char} (hw : w.HasLiteral) (hopens : w.Opens c)
    (hc : isWordChar c = true) : w.IsWord := by
  cases w with
  | none | bool _ | int _ => trivial
  | float _ => exact hw
  | object _ _ => exact hw.elim
  | str _ =>
    rcases hopens with rfl | rfl <;> exact absurd hc (by decide)
  | list _ | tuple _ | dict _ =>
    obtain rfl : c = _ := hopens
    exact absurd hc (by decide)

theorem unique_word {v : PyValue} (hv : v.IsWord) : Unique (WrittenAs lib) v := by
  intro w s t text text' h h' hends hends' heq
  obtain ⟨hne, hwords⟩ := isWordChar_repr hv h.2
  obtain ⟨c, s', rfl⟩ := List.exists_cons_of_ne_nil hne
  obtain ⟨d, t', rfl, hopens⟩ := exists_opens (everywhere_self h'.1) h'.2
  obtain rfl := (List.cons.inj heq).1
  have hw := isWord_of_opens (everywhere_self h'.1) hopens (hwords c List.mem_cons_self)
  obtain ⟨hst, htext⟩ := words_inj hwords (isWordChar_repr hw h'.2).2 hends hends' heq
  exact ⟨word_eq hv hw h.2 (hst ▸ h'.2), htext⟩

theorem eq_str_of_opens {w : PyValue} {c : Char} (hc : c = '\'' ∨ c = '"') (h : w.Opens c) : ∃ s, w = .str s := by
  cases w with
  | str s => exact ⟨s, rfl⟩
  | none | bool _ | int _ | float _ | object _ _ | list _ | tuple _ | dict _ =>
    rcases hc with rfl | rfl <;>
      first | exact absurd (show isWordChar _ = true from h) (by decide) | exact absurd (show _ = _ from h) (by decide)

theorem eq_list_of_opens {w : PyValue} (h : w.Opens '[') : ∃ items, w = .list items := by
  cases w with
  | list items => exact ⟨items, rfl⟩
  | str _ => exact absurd h (by simp [Opens])
  | none | bool _ | int _ | float _ | object _ _ | tuple _ | dict _ =>
    first | exact absurd (show isWordChar _ = true from h) (by decide) | exact absurd (show _ = _ from h) (by decide)

theorem eq_tuple_of_opens {w : PyValue} (h : w.Opens '(') : ∃ items, w = .tuple items := by
  cases w with
  | tuple items => exact ⟨items, rfl⟩
  | str _ => exact absurd h (by simp [Opens])
  | none | bool _ | int _ | float _ | object _ _ | list _ | dict _ =>
    first | exact absurd (show isWordChar _ = true from h) (by decide) | exact absurd (show _ = _ from h) (by decide)

theorem eq_dict_of_opens {w : PyValue} (h : w.Opens '\x7b') : ∃ fields, w = .dict fields := by
  cases w with
  | dict fields => exact ⟨fields, rfl⟩
  | str _ => exact absurd h (by simp [Opens])
  | none | bool _ | int _ | float _ | object _ _ | list _ | tuple _ =>
    first | exact absurd (show isWordChar _ = true from h) (by decide) | exact absurd (show _ = _ from h) (by decide)

theorem exists_utf8 {s : PyText} (h : s.IsUtf8) : ∃ u : String, s = .utf8 u := by
  cases s with
  | utf8 u => exact ⟨u, rfl⟩
  | lone codes hcodes => exact h.elim

theorem unique_str (s : PyText) : Unique (WrittenAs lib) (.str s) := by
  intro w x y text text' h h' _ _ heq
  obtain ⟨c, hc, hw⟩ := opens_of_append h h' heq
  obtain ⟨t, rfl⟩ := eq_str_of_opens hc hw
  obtain ⟨s, rfl⟩ := exists_utf8 h.1
  obtain ⟨t, rfl⟩ := exists_utf8 h'.1
  obtain rfl := Except.ok.inj h.2
  obtain rfl := Except.ok.inj h'.2
  obtain ⟨rfl, htext⟩ := literal_inj heq
  exact ⟨rfl, htext⟩

/-- The items of a list or a tuple with what closes it. -/
theorem items_inj {items items' : List PyValue} {xs ys : List (List Char)} {text text' : List Char}
    (hunique : ∀ item ∈ items, Unique (WrittenAs lib) item) (hitems : EverywhereItems HasLiteral items)
    (hitems' : EverywhereItems HasLiteral items') (hxs : reprItems lib items = .ok xs)
    (hys : reprItems lib items' = .ok ys) (hclose : Closes text) (hclose' : Closes text')
    (h : joined xs ++ text = joined ys ++ text') : items = items' ∧ text = text' :=
  joined_inj WrittenAs.not_ends hunique (forall₂_reprItems hitems hxs) (forall₂_reprItems hitems' hys) hclose hclose' h

theorem append_of_cons_append {c : Char} {xs ys close close' text text' : List Char}
    (h : c :: xs ++ close ++ text = c :: ys ++ close' ++ text') : xs ++ (close ++ text) = ys ++ (close' ++ text') := by
  simpa only [List.cons_append, List.append_assoc, List.cons.injEq, true_and] using h

theorem unique_list {items : List PyValue} (hitems : ∀ item ∈ items, Unique (WrittenAs lib) item) :
    Unique (WrittenAs lib) (.list items) := by
  intro w x y text text' h h' _ _ heq
  obtain ⟨c, rfl, hw⟩ := opens_of_append h h' heq
  obtain ⟨items', rfl⟩ := eq_list_of_opens hw
  obtain ⟨xs, hxs, hx⟩ := except_bind_eq_ok.mp h.2
  obtain ⟨ys, hys, hy⟩ := except_bind_eq_ok.mp h'.2
  obtain rfl := Except.ok.inj hx
  obtain rfl := Except.ok.inj hy
  have htail := append_of_cons_append heq
  obtain ⟨rfl, hclose⟩ := items_inj hitems h.1.2 h'.1.2 hxs hys (closes_singleton (by decide) text)
    (closes_singleton (by decide) text') htail
  exact ⟨rfl, (List.cons.inj hclose).2⟩

theorem unique_tuple {items : List PyValue} (hitems : ∀ item ∈ items, Unique (WrittenAs lib) item) :
    Unique (WrittenAs lib) (.tuple items) := by
  intro w x y text text' h h' _ _ heq
  obtain ⟨c, rfl, hw⟩ := opens_of_append h h' heq
  obtain ⟨items', rfl⟩ := eq_tuple_of_opens hw
  obtain ⟨xs, hxs, hx⟩ := except_bind_eq_ok.mp h.2
  obtain ⟨ys, hys, hy⟩ := except_bind_eq_ok.mp h'.2
  obtain rfl := Except.ok.inj hx
  obtain rfl := Except.ok.inj hy
  have htail := append_of_cons_append heq
  obtain ⟨rfl, hclose⟩ := items_inj hitems h.1.2 h'.1.2 hxs hys (closes_tupleEnd _ text) (closes_tupleEnd _ text') htail
  exact ⟨rfl, List.append_cancel_left hclose⟩

theorem unique_dict {fields : PyDict} (hfields : ∀ f ∈ fields, Unique (WrittenAs lib) f.2) :
    Unique (WrittenAs lib) (.dict fields) := by
  intro w x y text text' h h' _ _ heq
  obtain ⟨c, rfl, hw⟩ := opens_of_append h h' heq
  obtain ⟨fields', rfl⟩ := eq_dict_of_opens hw
  obtain ⟨xs, hxs, hx⟩ := except_bind_eq_ok.mp h.2
  obtain ⟨ys, hys, hy⟩ := except_bind_eq_ok.mp h'.2
  obtain rfl := Except.ok.inj hx
  obtain rfl := Except.ok.inj hy
  have htail := append_of_cons_append heq
  obtain ⟨rfl, hclose⟩ := joined_inj MemberWrittenAs.not_ends (fun f hf => unique_member (hfields f hf))
    (forall₂_reprFields h.1.1 h.1.2 hxs) (forall₂_reprFields h'.1.1 h'.1.2 hys) (closes_singleton (by decide) text)
    (closes_singleton (by decide) text') htail
  exact ⟨rfl, (List.cons.inj hclose).2⟩

mutual
/-- **A literal ends where its value ends.** -/
theorem unique_repr (v : PyValue) : Unique (WrittenAs lib) v := by
  match v with
  | .none => exact unique_word trivial
  | .bool _ => exact unique_word trivial
  | .int _ => exact unique_word trivial
  | .float x => exact fun w s t text text' h => unique_word (v := .float x) h.1 w s t text text' h
  | .str s => exact unique_str s
  | .list items => exact unique_list (unique_items items)
  | .tuple items => exact unique_tuple (unique_items items)
  | .dict fields => exact unique_dict (unique_fields fields)
  | .object _ _ => exact fun _ _ _ _ _ h => h.1.elim

theorem unique_items (items : List PyValue) : ∀ item ∈ items, Unique (WrittenAs lib) item := by
  match items with
  | [] => exact fun _ h => (List.not_mem_nil h).elim
  | item :: items => exact List.forall_mem_cons.mpr ⟨unique_repr item, unique_items items⟩

theorem unique_fields (fields : PyDict) : ∀ f ∈ fields, Unique (WrittenAs lib) f.2 := by
  match fields with
  | [] => exact fun _ h => (List.not_mem_nil h).elim
  | (_, v) :: fields => exact List.forall_mem_cons.mpr ⟨unique_repr v, unique_fields fields⟩
end

/-- **A literal determines its value.** -/
theorem repr_inj {v w : PyValue} {s : List Char} (hv : v.Everywhere HasLiteral) (hw : w.Everywhere HasLiteral)
    (h : v.repr lib = .ok s) (h' : w.repr lib = .ok s) : v = w :=
  (unique_repr v w s s [] [] ⟨hv, h⟩ ⟨hw, h'⟩ (fun _ hc => nomatch hc) (fun _ hc => nomatch hc) rfl).1

/-! ### What has a literal -/

theorem everywhereItems_iff {P : PyValue → Prop} {items : List PyValue} :
    EverywhereItems P items ↔ ∀ item ∈ items, item.Everywhere P := by
  induction items with
  | nil => exact ⟨fun _ _ h => (List.not_mem_nil h).elim, fun _ => trivial⟩
  | cons item items ih => rw [EverywhereItems, ih, List.forall_mem_cons]

theorem everywhereFields_iff {P : PyValue → Prop} {fields : PyDict} :
    EverywhereFields P fields ↔ ∀ f ∈ fields, f.2.Everywhere P := by
  induction fields with
  | nil => exact ⟨fun _ _ h => (List.not_mem_nil h).elim, fun _ => trivial⟩
  | cons f fields ih => rw [EverywhereFields, ih, List.forall_mem_cons]

attribute [local irreducible] Json.intLimit in
mutual
theorem exists_repr (v : PyValue) (h : v.Everywhere HasLiteral) : ∃ s, v.repr lib = .ok s := by
  match v with
  | .none | .bool _ | .float _ | .str _ => exact ⟨_, rfl⟩
  | .int i => exact ⟨_, if_pos h⟩
  | .list items =>
    obtain ⟨xs, hxs⟩ := exists_reprItems items h.2
    exact ⟨_, except_bind_eq_ok.mpr ⟨xs, hxs, rfl⟩⟩
  | .tuple items =>
    obtain ⟨xs, hxs⟩ := exists_reprItems items h.2
    exact ⟨_, except_bind_eq_ok.mpr ⟨xs, hxs, rfl⟩⟩
  | .dict fields =>
    obtain ⟨xs, hxs⟩ := exists_reprFields fields h.1 h.2
    exact ⟨_, except_bind_eq_ok.mpr ⟨xs, hxs, rfl⟩⟩

theorem exists_reprItems (items : List PyValue) (h : EverywhereItems HasLiteral items) :
    ∃ xs, reprItems lib items = .ok xs := by
  match items with
  | [] => exact ⟨[], rfl⟩
  | item :: items =>
    obtain ⟨x, hx⟩ := exists_repr item h.1
    obtain ⟨xs, hxs⟩ := exists_reprItems items h.2
    exact ⟨_, except_bind_eq_ok.mpr ⟨x, hx, except_bind_eq_ok.mpr ⟨xs, hxs, rfl⟩⟩⟩

theorem exists_reprFields (fields : PyDict) (hkeys : ∀ key ∈ fields.map Prod.fst, ∃ s : String, key = .str (.utf8 s))
    (h : EverywhereFields HasLiteral fields) : ∃ xs, reprFields lib fields = .ok xs := by
  match fields with
  | [] => exact ⟨[], rfl⟩
  | (key, v) :: fields =>
    obtain ⟨⟨s, hs⟩, hrest⟩ := List.forall_mem_cons.mp hkeys
    obtain rfl : key = .str (.utf8 s) := hs
    obtain ⟨x, hx⟩ := exists_repr v h.1
    obtain ⟨xs, hxs⟩ := exists_reprFields fields hrest h.2
    exact ⟨_, except_bind_eq_ok.mpr ⟨_, rfl, except_bind_eq_ok.mpr ⟨x, hx, except_bind_eq_ok.mpr ⟨xs, hxs, rfl⟩⟩⟩⟩
end

mutual
/-- JSON with tuples for lists has a literal. -/
theorem hasLiteral_of_listed (v : PyValue) {j : Json} (hj : v.listed = .ofJson j)
    (hencodable : j.Leaves Json.IsEncodable) (hshort : j.Leaves Json.IsShort) (hfinite : j.Leaves Json.IsFinite) :
    v.Everywhere HasLiteral := by
  match v, j with
  | .none, .null | .bool _, .bool _ => trivial
  | .int i, .int j =>
    obtain rfl := int.inj hj
    exact hshort
  | .float x, .float y =>
    obtain rfl := float.inj hj
    exact hfinite
  | .str s, .str t =>
    obtain rfl := str.inj hj
    exact hencodable
  | .list items, .arr js | .tuple items, .arr js =>
    exact ⟨trivial, hasLiteral_of_listedItems items (list.inj hj) hencodable hshort hfinite⟩
  | .dict fields, .obj pairs => exact hasLiteral_of_listedFields fields (dict.inj hj) hencodable hshort hfinite
  | .object _ _, j => cases j <;> cases hj

theorem hasLiteral_of_listedItems (items : List PyValue) {js : List Json}
    (hj : listedItems items = ofJsonItems js) (hencodable : Json.LeavesItems Json.IsEncodable js)
    (hshort : Json.LeavesItems Json.IsShort js) (hfinite : Json.LeavesItems Json.IsFinite js) :
    EverywhereItems HasLiteral items := by
  match items, js with
  | [], [] => trivial
  | v :: items, j :: js =>
    obtain ⟨hv, hitems⟩ := List.cons.inj hj
    exact ⟨hasLiteral_of_listed v hv hencodable.1 hshort.1 hfinite.1,
      hasLiteral_of_listedItems items hitems hencodable.2 hshort.2 hfinite.2⟩

theorem hasLiteral_of_listedFields (fields : PyDict) {pairs : List (PyText × Json)}
    (hj : listedFields fields = ofJsonFields pairs) (hencodable : Json.LeavesFields Json.IsEncodable pairs)
    (hshort : Json.LeavesFields Json.IsShort pairs) (hfinite : Json.LeavesFields Json.IsFinite pairs) :
    (∀ key ∈ fields.map Prod.fst, ∃ s : String, key = .str (.utf8 s)) ∧ EverywhereFields HasLiteral fields := by
  match fields, pairs with
  | [], [] => exact ⟨fun _ h => (List.not_mem_nil h).elim, trivial⟩
  | (key, v) :: fields, (k, j) :: pairs =>
    obtain ⟨hhead, htail⟩ := List.cons.inj hj
    obtain ⟨rfl, hv⟩ := Prod.mk.inj hhead
    obtain ⟨hkeys, hfields⟩ := hasLiteral_of_listedFields fields htail hencodable.2.2 hshort.2.2 hfinite.2.2
    obtain ⟨s, rfl⟩ := exists_utf8 hencodable.1
    exact ⟨List.forall_mem_cons.mpr ⟨⟨s, rfl⟩, hkeys⟩,
      hasLiteral_of_listed v hv hencodable.2.1 hshort.2.1 hfinite.2.1, hfields⟩
end

end PyValue

end Rpr
