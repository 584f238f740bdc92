import PathwayRuntime.Python.Scan

/-!
# What is dumped is loaded again

* `PyValue.Everywhere`: a property of a value and of all values in it; `PyValue.depth`.
* `PyValue.listed`: the value with lists for tuples.
* `Spaced`: a text behind spaces; `readAs_spacedItems`, `readAs_spacedMembers`: arrays and objects with spaces in them.
* **`readAs_writeValue`**: the text of a value is read as that value.
* `loads_dumps`: the same for `json.dumps` and `json.loads`.
-/

set_option autoImplicit false

namespace Rpr

namespace PyValue

mutual
/-- The value and all values in it satisfy `p`. -/
def Everywhere (p : PyValue → Prop) : PyValue → Prop
  | .list items => p (.list items) ∧ EverywhereItems p items
  | .tuple items => p (.tuple items) ∧ EverywhereItems p items
  | .dict fields => p (.dict fields) ∧ EverywhereFields p fields
  | value => p value

def EverywhereItems (p : PyValue → Prop) : List PyValue → Prop
  | [] => True
  | item :: items => Everywhere p item ∧ EverywhereItems p items

def EverywhereFields (p : PyValue → Prop) : List (PyKey × PyValue) → Prop
  | [] => True
  | (_, value) :: fields => Everywhere p value ∧ EverywhereFields p fields
end

mutual
/-- How deep containers are nested. -/
def depth : PyValue → ℕ
  | .list items | .tuple items => depthItems items + 1
  | .dict fields => depthFields fields + 1
  | _ => 0

def depthItems : List PyValue → ℕ
  | [] => 0
  | item :: items => max (depth item) (depthItems items)

def depthFields : List (PyKey × PyValue) → ℕ
  | [] => 0
  | (_, value) :: fields => max (depth value) (depthFields fields)
end

mutual
/-- Tuples become lists. -/
def listed : PyValue → PyValue
  | .list items | .tuple items => .list (listedItems items)
  | .dict fields => .dict (listedFields fields)
  | value => value

def listedItems : List PyValue → List PyValue
  | [] => []
  | item :: items => listed item :: listedItems items

def listedFields : List (PyKey × PyValue) → PyDict
  | [] => []
  | (key, value) :: fields => (key, listed value) :: listedFields fields
end

/-- The keys of a mapping are texts. -/
def TextKeys : PyValue → Prop
  | .dict fields => ∀ key ∈ fields.map Prod.fst, ∃ s, key = .str s
  | _ => True

/-- A mapping has one value under each key, and a float is the one its digits are read as. -/
def Proper (py : JsonPlatform) : PyValue → Prop
  | .dict fields => (fields.map Prod.fst).Nodup
  | .float (.finite x) => py.readFloat x = .finite x
  | _ => True

end PyValue

theorem keys_listedFields (fields : PyDict) :
    (PyValue.listedFields fields).map Prod.fst = fields.map Prod.fst := by
  induction fields with
  | nil => rfl
  | cons f fields ih => rw [PyValue.listedFields, List.map_cons, List.map_cons, ih]

theorem keys_ofJsonFields (pairs : List (PyText × Json)) :
    (PyValue.ofJsonFields pairs).map Prod.fst = (pairs.map Prod.fst).map PyKey.str := by
  induction pairs with
  | nil => rfl
  | cons f pairs ih => rw [PyValue.ofJsonFields, List.map_cons, List.map_cons, List.map_cons, ih]

/-- A member that comes after others has a key of its own. -/
theorem key_notMem_of_nodup {α β : Type} {before rest : List (α × β)} {key : α} {value : β}
    (h : ((before ++ (key, value) :: rest).map Prod.fst).Nodup) : key ∉ before.map Prod.fst := by
  rw [List.map_append, List.nodup_append] at h
  exact fun hmem => h.2.2 key hmem key List.mem_cons_self rfl

/-- The hook keeps objects in which every member has a key of its own. -/
def JsonHooks.KeepsObjects (hooks : JsonHooks) : Prop :=
  ∀ pairs : List (PyText × Json), (pairs.map Prod.fst).Nodup → hooks.objectPairs pairs = .ok (.obj pairs)

/-! ## First characters -/

/-- The characters a value begins with. -/
def begins (c : Char) : Bool :=
  c == '"' || c == '[' || c == '{' || c == '-' || c.isDigit || c == 'n' || c == 't' || c == 'f' || c == 'N' ||
    c == 'I'

/-- A text that begins like a value. -/
def BeginsValue (text : List Char) : Prop := ∃ c rest, text = c :: rest ∧ begins c = true

/-- What follows a value: nothing, a comma or a closing bracket. -/
def EndsValue (rest : List Char) : Prop := Stops (fun c => !(c == ',' || c == ']' || c == '}')) rest

theorem EndsValue.stops {rest : List Char} (h : EndsValue rest) : Stops goesOn rest := by
  intro c hc
  have := h c hc
  simp only [Bool.not_eq_false', Bool.or_eq_true, beq_iff_eq] at this
  rcases this with (rfl | rfl) | rfl <;> decide

theorem skipSpace_of_begins {text : List Char} (h : BeginsValue text) : skipSpace text = text := by
  obtain ⟨c, rest, rfl, hc⟩ := h
  rw [skipSpace, List.dropWhile_cons_of_neg]
  rintro hspace
  simp only [Bool.or_eq_true, beq_iff_eq] at hspace
  rcases hspace with ((rfl | rfl) | rfl) | rfl <;> revert hc <;> decide

theorem skipSpace_of_ends {rest : List Char} (h : EndsValue rest) : skipSpace rest = rest := by
  cases rest with
  | nil => rfl
  | cons c rest =>
    have hc := stops_cons.mp h
    simp only [Bool.not_eq_false', Bool.or_eq_true, beq_iff_eq] at hc
    rcases hc with (rfl | rfl) | rfl <;> rfl

theorem BeginsValue.append {text : List Char} (h : BeginsValue text) (rest : List Char) :
    BeginsValue (text ++ rest) := by
  obtain ⟨c, tail, rfl, hc⟩ := h
  exact ⟨c, tail ++ rest, rfl, hc⟩

theorem begins_digits {digits : List Char} (hne : digits ≠ []) (hdigits : ∀ c ∈ digits, c.isDigit = true)
    (neg : Bool) (rest : List Char) : BeginsValue (signText neg ++ (digits ++ rest)) := by
  cases neg with
  | true => exact ⟨'-', _, rfl, by decide⟩
  | false =>
    obtain ⟨c, digits, rfl⟩ := List.exists_cons_of_ne_nil hne
    exact ⟨c, _, rfl, by simp [begins, hdigits c List.mem_cons_self]⟩

/-! ## Values without members -/

section Leaves

variable {py : JsonPlatform} {hooks : JsonHooks} {nested : Option (List Char → Scanned Json)}

/-- Digits begin no word and no other value. -/
theorem scanValue_digits {digits : List Char} (hne : digits ≠ []) (hdigits : ∀ c ∈ digits, c.isDigit = true)
    (neg : Bool) (rest : List Char) : scanValue py hooks nested (signText neg ++ (digits ++ rest)) =
      scanNumber py (signText neg ++ (digits ++ rest)) := by
  obtain ⟨d, digits, rfl⟩ := List.exists_cons_of_ne_nil hne
  have hd := hdigits d List.mem_cons_self
  have hother : ∀ c, c.isDigit = false → d ≠ c := by
    rintro c hc rfl
    rw [hd] at hc
    cases hc
  have hI := hother 'I' (by decide)
  cases neg with
  | true =>
    have hword : scanWord hooks (signText true ++ (d :: digits ++ rest)) = none := by
      simp [scanWord, words, signText, Ne.symm hI]
    rw [scanValue, hword, Option.getD_none] <;> simp [signText]
  | false =>
    have hquote := hother '"' (by decide)
    have hbracket := hother '[' (by decide)
    have hbrace := hother '{' (by decide)
    have hword : scanWord hooks (signText false ++ (d :: digits ++ rest)) = none := by
      simp [scanWord, words, signText, Ne.symm hI, Ne.symm (hother 'n' (by decide)),
        Ne.symm (hother 't' (by decide)), Ne.symm (hother 'f' (by decide)), Ne.symm (hother 'N' (by decide)),
        Ne.symm (hother '-' (by decide))]
    rw [scanValue, hword, Option.getD_none] <;> simp [signText, hquote, hbracket, hbrace]

/-- The text of a float: a sign and digits first. -/
theorem repr_digits (x : Decimal) : ∃ digits more, digits ≠ [] ∧ (∀ c ∈ digits, c.isDigit = true) ∧
    x.repr = signText x.neg ++ (digits ++ more) := by
  have hall : ∀ c ∈ decimalDigits x.digits, c.isDigit = true := fun c hc => isDigit_of_mem hc
  have hne := decimalDigits_ne_nil x.digits
  have htake : ∀ k, 0 < k → (decimalDigits x.digits).take k ≠ [] ∧
      ∀ c ∈ (decimalDigits x.digits).take k, c.isDigit = true := by
    intro k hk
    refine ⟨?_, fun c hc => hall c (List.mem_of_mem_take hc)⟩
    rw [ne_eq, List.take_eq_nil_iff, not_or]
    exact ⟨hk.ne', hne⟩
  rw [Decimal.repr]
  simp only [toList_toString]
  rw [← signText]
  split_ifs
  · simp only [List.append_assoc]
    exact ⟨['0'], _, List.cons_ne_nil _ _, List.forall_mem_singleton.mpr (by decide), rfl⟩
  · exact ⟨decimalDigits x.digits, _, hne, hall, by rw [List.append_assoc, List.append_assoc]⟩
  · rw [List.append_assoc, List.append_assoc]
    exact ⟨_, _, (htake _ (by omega)).1, (htake _ (by omega)).2, rfl⟩
  all_goals
    simp only [List.append_assoc]
    exact ⟨_, _, (htake 1 one_pos).1, (htake 1 one_pos).2, rfl⟩

/-- What is read of a value, and that its text begins like a value. -/
def ReadAs (py : JsonPlatform) (hooks : JsonHooks) (k : ℕ) (text : List Char) (v : PyValue) : Prop :=
  BeginsValue text ∧ ∀ rest, EndsValue rest →
    ∃ j, scanOnce py hooks k (text ++ rest) = .ok (j, rest) ∧ PyValue.ofJson j = v

/-- A scanner of values without members is one for any depth. -/
theorem readAs_of_scanValue {k : ℕ} {text : List Char} {j : Json} (hbegins : BeginsValue text)
    (h : ∀ nested rest, EndsValue rest → scanValue py hooks nested (text ++ rest) = .ok (j, rest)) :
    ReadAs py hooks k text (PyValue.ofJson j) := by
  refine ⟨hbegins, fun rest hrest => ⟨j, ?_, rfl⟩⟩
  cases k with
  | zero => exact h none rest hrest
  | succ k => exact h (some (scanOnce py hooks k)) rest hrest

theorem readAs_int {k : ℕ} {i : ℤ} (hi : i.natAbs < Json.intLimit) :
    ReadAs py hooks k (toString i).toList (.int i) := by
  have hdigits : ∀ c ∈ decimalDigits i.natAbs, c.isDigit = true := fun c hc => isDigit_of_mem hc
  refine readAs_of_scanValue (j := .int i) ?_ fun nested rest hrest => ?_
  · rw [toList_toString_int]
    simpa using begins_digits (decimalDigits_ne_nil _) hdigits (decide (i < 0)) []
  · refine Eq.trans ?_ (scanNumber_int py hi hrest.stops)
    rw [toList_toString_int, List.append_assoc]
    exact scanValue_digits (decimalDigits_ne_nil _) hdigits _ rest

theorem readAs_float {k : ℕ} {x : Decimal} (hx : py.readFloat x = .finite x) :
    ReadAs py hooks k x.repr (.float (.finite x)) := by
  obtain ⟨digits, more, hne, hdigits, hrepr⟩ := repr_digits x
  refine readAs_of_scanValue (j := .float (.finite x)) ?_ fun nested rest hrest => ?_
  · rw [hrepr]
    exact begins_digits hne hdigits x.neg more
  · have hscan := scanNumber_float py x hrest.stops
    rw [hx] at hscan
    refine Eq.trans ?_ hscan
    rw [hrepr, List.append_assoc, List.append_assoc]
    exact scanValue_digits hne hdigits x.neg (more ++ rest)

/-- A number that is not finite, for hooks that keep it. -/
theorem readAs_constant {k : ℕ} {x : PyFloat} (hx : x.isFinite = false)
    (h : hooks.parseConstant (String.ofList x.repr) = .ok (.float x)) : ReadAs py hooks k x.repr (.float x) := by
  have hword {constant : String} {nested : Option (List Char → Scanned Json)} {rest : List Char}
      (hscan : scanValue py hooks nested (x.repr ++ rest) =
        ((hooks.parseConstant constant).mapError ScanError.raised).map (·, rest))
      (hconstant : constant = String.ofList x.repr) :
      scanValue py hooks nested (x.repr ++ rest) = .ok (.float x, rest) := by
    rw [hscan, hconstant, h]
    rfl
  cases x with
  | finite x => cases hx
  | nan =>
    exact readAs_of_scanValue (j := .float .nan) ⟨'N', _, rfl, by decide⟩
      fun nested rest _ => @hword "NaN" _ _ rfl rfl
  | inf neg =>
    cases neg with
    | true =>
      exact readAs_of_scanValue (j := .float (.inf true)) ⟨'-', _, rfl, by decide⟩
        fun nested rest _ => @hword "-Infinity" _ _ rfl rfl
    | false =>
      exact readAs_of_scanValue (j := .float (.inf false)) ⟨'I', _, rfl, by decide⟩
        fun nested rest _ => @hword "Infinity" _ _ rfl rfl

theorem readAs_text {k : ℕ} {s : PyText} {literal : List Char} (h : Json.quote s = some literal) :
    ReadAs py hooks k literal (.str s) := by
  refine readAs_of_scanValue (j := .str s) ?_ fun nested rest hrest => ?_
  · obtain ⟨body, hbody, -⟩ := scanText_quote h []
    rw [List.append_nil] at hbody
    exact ⟨'"', body, hbody, by decide⟩
  · obtain ⟨body, hbody, hscan⟩ := scanText_quote h rest
    rw [hbody, scanValue, hscan]
    rfl

theorem readAs_bool {k : ℕ} (b : Bool) :
    ReadAs py hooks k (if b then "true".toList else "false".toList) (.bool b) := by
  cases b with
  | true => exact readAs_of_scanValue (j := .bool true) ⟨'t', _, rfl, by decide⟩ fun nested rest _ => rfl
  | false => exact readAs_of_scanValue (j := .bool false) ⟨'f', _, rfl, by decide⟩ fun nested rest _ => rfl

theorem readAs_none {k : ℕ} : ReadAs py hooks k "null".toList .none :=
  readAs_of_scanValue (j := .null) ⟨'n', _, rfl, by decide⟩ fun nested rest _ => rfl

end Leaves

/-! ## Arrays and objects -/

theorem ends_comma (rest : List Char) : EndsValue (',' :: rest) := stops_cons.mpr (by decide)

theorem ends_bracket (rest : List Char) : EndsValue (']' :: rest) := stops_cons.mpr (by decide)

theorem ends_brace (rest : List Char) : EndsValue ('}' :: rest) := stops_cons.mpr (by decide)

theorem skipSpace_colon (rest : List Char) : skipSpace (':' :: rest) = ':' :: rest := rfl

theorem commas_cons_cons (x y : List Char) (ys : List (List Char)) :
    Json.commas (x :: y :: ys) = x ++ ',' :: Json.commas (y :: ys) := by
  rw [Json.commas]
  exact List.cons_ne_nil y ys

/-- There are fewer members than characters. -/
theorem length_commas (xs : List (List Char)) (c : Char) (rest : List Char) :
    xs.length ≤ (Json.commas xs ++ c :: rest).length := by
  suffices xs.length ≤ (Json.commas xs).length + 1 by
    rw [List.length_append, List.length_cons]
    omega
  induction xs with
  | nil => exact Nat.zero_le _
  | cons x xs ih =>
    cases xs with
    | nil => exact Nat.le_add_left 1 _
    | cons y ys =>
      rw [commas_cons_cons]
      simp only [List.length_cons, List.length_append] at ih ⊢
      omega

theorem begins_commas {x : List Char} (h : BeginsValue x) (xs : List (List Char)) :
    BeginsValue (Json.commas (x :: xs)) := by
  cases xs with
  | nil => exact h
  | cons y ys => exact h.append _

/-- What `R` says of a text, but for spaces before it. -/
def Spaced {α : Type} (R : List Char → α → Prop) (text : List Char) (a : α) : Prop :=
  ∃ core, R core a ∧ ∀ rest, skipSpace (text ++ rest) = core ++ rest

theorem Spaced.of_begins {α : Type} {R : List Char → α → Prop} {text : List Char} {a : α} (h : R text a)
    (hbegins : BeginsValue text) : Spaced R text a :=
  ⟨text, h, fun rest => skipSpace_of_begins (hbegins.append rest)⟩

/-- One space more. -/
theorem Spaced.space {α : Type} {R : List Char → α → Prop} {text : List Char} {a : α} (h : Spaced R text a) :
    Spaced R (' ' :: text) a := by
  obtain ⟨core, hcore, hskip⟩ := h
  exact ⟨core, hcore, fun rest => hskip rest⟩

section Members

variable {py : JsonPlatform} {hooks : JsonHooks} {k : ℕ}

/-- **The items of an array are read one after another**, with spaces between them or without. -/
theorem scanItems_commas {x : List Char} {xs : List (List Char)} {vs : List PyValue}
    (h : List.Forall₂ (Spaced (ReadAs py hooks k)) (x :: xs) vs) (turns : ℕ) (hturns : (x :: xs).length ≤ turns)
    (rest : List Char) : ∃ js,
      scanItems (scanOnce py hooks k) turns (skipSpace (Json.commas (x :: xs) ++ ']' :: rest)) = .ok (js, rest) ∧
        PyValue.ofJsonItems js = vs := by
  induction xs generalizing x vs turns with
  | nil =>
    obtain ⟨v, tail, ⟨core, hx, hskip⟩, htail, rfl⟩ := List.forall₂_cons_left_iff.mp h
    obtain rfl := List.forall₂_nil_left_iff.mp htail
    obtain ⟨turns, rfl⟩ := Nat.exists_eq_add_of_le' hturns
    obtain ⟨j, hscan, hj⟩ := hx.2 _ (ends_bracket rest)
    refine ⟨[j], ?_, by rw [← hj]; rfl⟩
    rw [Json.commas, hskip, List.length_singleton, scanItems, hscan]
    simp only [skipSpace_of_ends (ends_bracket rest)]
  | cons y ys ih =>
    obtain ⟨v, tail, ⟨core, hx, hskip⟩, htail, rfl⟩ := List.forall₂_cons_left_iff.mp h
    obtain ⟨turns, rfl⟩ : ∃ n, turns = n + 1 := Nat.exists_eq_add_of_le' (by
      rw [List.length_cons] at hturns
      omega)
    obtain ⟨js, hitems, hjs⟩ := ih htail turns (by simpa using hturns)
    obtain ⟨j, hscan, hj⟩ := hx.2 _ (ends_comma (Json.commas (y :: ys) ++ ']' :: rest))
    refine ⟨j :: js, ?_, by rw [← hj, ← hjs]; rfl⟩
    rw [commas_cons_cons, List.append_assoc, List.cons_append, hskip, scanItems, hscan]
    simp only [skipSpace_of_ends (ends_comma _), hitems]
    rfl

/-- An array of items with spaces between them is read. -/
theorem readAs_spacedItems {x : List Char} {xs : List (List Char)} {v : PyValue} {vs : List PyValue}
    (hx : ReadAs py hooks k x v) (h : List.Forall₂ (Spaced (ReadAs py hooks k)) xs vs) :
    ReadAs py hooks (k + 1) (bracket '[' ']' (x :: xs)) (.list (v :: vs)) := by
  refine ⟨⟨'[', _, rfl, by decide⟩, fun rest _ => ?_⟩
  rw [scanOnce, show bracket '[' ']' (x :: xs) ++ rest = '[' :: (Json.commas (x :: xs) ++ ']' :: rest) by
    simp [bracket], scanValue]
  have hbegins := (begins_commas hx.1 xs).append (']' :: rest)
  obtain ⟨js, hitems, hjs⟩ := scanItems_commas (.cons (.of_begins hx hx.1) h) _ (length_commas (x :: xs) ']' rest)
    rest
  rw [skipSpace_of_begins hbegins] at hitems
  refine ⟨.arr js, ?_, by rw [← hjs]; rfl⟩
  have harray : scanArray (scanOnce py hooks k) (Json.commas (x :: xs) ++ ']' :: rest) = .ok (js, rest) := by
    rw [scanArray.eq_def, skipSpace_of_begins hbegins]
    split
    · rename_i heq
      obtain ⟨c, tail, hc, hbegin⟩ := hbegins
      rw [hc] at heq
      obtain rfl := (List.cons.inj heq).1
      exact absurd hbegin (by decide)
    · exact hitems
  rw [harray]
  rfl

/-- An array without items is read. -/
theorem readAs_noItems : ReadAs py hooks (k + 1) (bracket '[' ']' []) (.list []) :=
  ⟨⟨'[', _, rfl, by decide⟩, fun _ _ => ⟨.arr [], rfl, rfl⟩⟩

/-- An array is read. -/
theorem readAs_bracket {xs : List (List Char)} {vs : List PyValue}
    (h : List.Forall₂ (ReadAs py hooks k) xs vs) : ReadAs py hooks (k + 1) (bracket '[' ']' xs) (.list vs) := by
  cases h with
  | nil => exact readAs_noItems
  | cons hx h => exact readAs_spacedItems hx (h.imp fun _ _ hy => .of_begins hy hy.1)

/-- What is read of a member. -/
def ReadMember (py : JsonPlatform) (hooks : JsonHooks) (k : ℕ) (text : List Char) (f : PyKey × PyValue) : Prop :=
  ∃ s literal value, f.1 = .str s ∧ Json.quote s = some literal ∧ text = memberText literal value ∧
    Spaced (ReadAs py hooks k) value f.2

theorem ReadMember.begins {text : List Char} {f : PyKey × PyValue} (h : ReadMember py hooks k text f) :
    BeginsValue text := by
  obtain ⟨s, literal, value, -, hquote, rfl, -⟩ := h
  have hliteral : ReadAs py hooks k literal (.str s) := readAs_text hquote
  exact hliteral.1.append _

/-- A member that is followed by a comma or a brace. -/
theorem ReadMember.scan {text : List Char} {f : PyKey × PyValue} (h : ReadMember py hooks k text f)
    {rest : List Char} (hrest : EndsValue rest) : ∃ s body after j, f = (.str s, PyValue.ofJson j) ∧
      text ++ rest = '"' :: body ∧ scanText body = .ok (s, ':' :: after) ∧
      scanOnce py hooks k (skipSpace after) = .ok (j, rest) := by
  obtain ⟨s, literal, value, hkey, hquote, rfl, core, hcore, hskip⟩ := h
  obtain ⟨j, hscan, hj⟩ := hcore.2 rest hrest
  obtain ⟨body, hbody, htext⟩ := scanText_quote hquote (':' :: (value ++ rest))
  exact ⟨s, body, value ++ rest, j, Prod.ext hkey hj.symm, by simpa [memberText] using hbody, htext,
    (congrArg _ (hskip rest)).trans hscan⟩

/-- **The members of an object are read one after another**, with spaces between them or without. -/
theorem scanMembers_commas {x : List Char} {xs : List (List Char)} {fields : PyDict}
    (h : List.Forall₂ (Spaced (ReadMember py hooks k)) (x :: xs) fields) (turns : ℕ)
    (hturns : (x :: xs).length ≤ turns) (rest : List Char) : ∃ pairs,
      scanMembers (scanOnce py hooks k) turns (skipSpace (Json.commas (x :: xs) ++ '}' :: rest)) = .ok (pairs, rest) ∧
        PyValue.ofJsonFields pairs = fields := by
  induction xs generalizing x fields turns with
  | nil =>
    obtain ⟨f, tail, ⟨core, hx, hskip⟩, htail, rfl⟩ := List.forall₂_cons_left_iff.mp h
    obtain rfl := List.forall₂_nil_left_iff.mp htail
    obtain ⟨turns, rfl⟩ := Nat.exists_eq_add_of_le' hturns
    obtain ⟨s, body, after, j, rfl, hbody, htext, hscan⟩ := hx.scan (ends_brace rest)
    refine ⟨[(s, j)], ?_, rfl⟩
    rw [Json.commas, hskip, hbody, List.length_singleton, scanMembers, htext]
    simp only [skipSpace_colon, hscan, skipSpace_of_ends (ends_brace rest)]
  | cons y ys ih =>
    obtain ⟨f, tail, ⟨core, hx, hskip⟩, htail, rfl⟩ := List.forall₂_cons_left_iff.mp h
    obtain ⟨turns, rfl⟩ : ∃ n, turns = n + 1 := Nat.exists_eq_add_of_le' (by
      rw [List.length_cons] at hturns
      omega)
    obtain ⟨pairs, hmembers, hpairs⟩ := ih htail turns (by simpa using hturns)
    obtain ⟨s, body, after, j, rfl, hbody, htext, hscan⟩ :=
      hx.scan (ends_comma (Json.commas (y :: ys) ++ '}' :: rest))
    refine ⟨(s, j) :: pairs, ?_, by rw [← hpairs]; rfl⟩
    rw [commas_cons_cons, List.append_assoc, List.cons_append, hskip, hbody, scanMembers, htext]
    simp only [skipSpace_colon, hscan, skipSpace_of_ends (ends_comma _), hmembers]
    rfl

/-- An object of members with spaces between them is read, if the hook keeps them. -/
theorem readAs_spacedMembers {x : List Char} {xs : List (List Char)} {f : PyKey × PyValue} {fields : PyDict}
    (hkeep : ∀ pairs, PyValue.ofJsonFields pairs = f :: fields → hooks.objectPairs pairs = .ok (.obj pairs))
    (hx : ReadMember py hooks k x f) (h : List.Forall₂ (Spaced (ReadMember py hooks k)) xs fields) :
    ReadAs py hooks (k + 1) (bracket '{' '}' (x :: xs)) (.dict (f :: fields)) := by
  refine ⟨⟨'{', _, rfl, by decide⟩, fun rest _ => ?_⟩
  have hbegins := (begins_commas hx.begins xs).append ('}' :: rest)
  obtain ⟨pairs, hmembers, hpairs⟩ := scanMembers_commas (.cons (.of_begins hx hx.begins) h) _
    (length_commas (x :: xs) '}' rest) rest
  rw [skipSpace_of_begins hbegins] at hmembers
  have hobject : scanObject (scanOnce py hooks k) (Json.commas (x :: xs) ++ '}' :: rest) = .ok (pairs, rest) := by
    rw [scanObject.eq_def, skipSpace_of_begins hbegins]
    split
    · rename_i heq
      obtain ⟨c, tail, hc, hbegin⟩ := hbegins
      rw [hc] at heq
      obtain rfl := (List.cons.inj heq).1
      exact absurd hbegin (by decide)
    · exact hmembers
  refine ⟨.obj pairs, ?_, by rw [← hpairs]; rfl⟩
  rw [scanOnce, show bracket '{' '}' (x :: xs) ++ rest = '{' :: (Json.commas (x :: xs) ++ '}' :: rest) by
    simp [bracket], scanValue]
  simp only [hobject, hkeep pairs hpairs]
  rfl

/-- An object without members is read. -/
theorem readAs_noMembers (hkeep : hooks.objectPairs [] = .ok (.obj [])) :
    ReadAs py hooks (k + 1) (bracket '{' '}' []) (.dict []) := by
  refine ⟨⟨'{', _, rfl, by decide⟩, fun rest _ => ⟨.obj [], ?_, rfl⟩⟩
  have hobject : scanObject (scanOnce py hooks k) ('}' :: rest) = .ok ([], rest) := rfl
  rw [scanOnce, show bracket '{' '}' [] ++ rest = '{' :: ('}' :: rest) from rfl, scanValue]
  simp only [hobject, hkeep]
  rfl

/-- An object is read, if the hook keeps its members. -/
theorem readAs_members {xs : List (List Char)} {fields : PyDict}
    (hkeep : ∀ pairs, PyValue.ofJsonFields pairs = fields → hooks.objectPairs pairs = .ok (.obj pairs))
    (h : List.Forall₂ (ReadMember py hooks k) xs fields) :
    ReadAs py hooks (k + 1) (bracket '{' '}' xs) (.dict fields) := by
  cases h with
  | nil => exact readAs_noMembers (hkeep [] rfl)
  | cons hx h => exact readAs_spacedMembers hkeep hx (h.imp fun _ _ hy => .of_begins hy hy.begins)

/-- An object is read, if its keys differ. -/
theorem readAs_brace (hhooks : hooks.KeepsObjects) {xs : List (List Char)} {fields : PyDict}
    (hkeys : (fields.map Prod.fst).Nodup) (h : List.Forall₂ (ReadMember py hooks k) xs fields) :
    ReadAs py hooks (k + 1) (bracket '{' '}' xs) (.dict fields) := by
  refine readAs_members (fun pairs hpairs => hhooks pairs ?_) h
  rw [← hpairs, keys_ofJsonFields] at hkeys
  exact hkeys.of_map PyKey.str

end Members

/-! ## All values -/

section Values

variable {py : JsonPlatform} {hooks : JsonHooks}

/-- An array that was written: its items were, with one container less to nest. -/
theorem writeItems_of_array {frames : ℕ} {items : List PyValue} {text : List Char}
    (h : writeValue py frames (.list items) = .ok (some text)) : ∃ n xs, frames = n + 1 ∧
      writeItems py n items = .ok (some xs) ∧ text = bracket '[' ']' xs := by
  cases frames with
  | zero => cases h
  | succ n =>
    obtain ⟨xs, hxs, h⟩ := except_bind_eq_ok.mp h
    obtain ⟨xs, rfl, rfl⟩ := Option.map_eq_some_iff.mp (Except.ok.inj h)
    exact ⟨n, xs, rfl, hxs, rfl⟩

/-- A tuple is written like a list. -/
theorem writeValue_tuple (frames : ℕ) (items : List PyValue) :
    writeValue py frames (.tuple items) = writeValue py frames (.list items) := by
  cases frames <;> rfl

/-- An object that was written: its members were, with one container less to nest. -/
theorem writeMembers_of_object {frames : ℕ} {fields : PyDict} {text : List Char}
    (h : writeValue py frames (.dict fields) = .ok (some text)) : ∃ n xs, frames = n + 1 ∧
      writeMembers py n fields = .ok (some xs) ∧ text = bracket '{' '}' xs := by
  cases frames with
  | zero => cases h
  | succ n =>
    obtain ⟨xs, hxs, h⟩ := except_bind_eq_ok.mp h
    obtain ⟨xs, rfl, rfl⟩ := Option.map_eq_some_iff.mp (Except.ok.inj h)
    exact ⟨n, xs, rfl, hxs, rfl⟩

theorem writeItems_cons {frames : ℕ} {item : PyValue} {items : List PyValue} {texts : List (List Char)}
    (h : writeItems py frames (item :: items) = .ok (some texts)) : ∃ x xs, texts = x :: xs ∧
      writeValue py frames item = .ok (some x) ∧ writeItems py frames items = .ok (some xs) := by
  obtain ⟨x, hx, h⟩ := except_bind_eq_ok.mp h
  obtain ⟨xs, hxs, h⟩ := except_bind_eq_ok.mp h
  obtain ⟨x', hx', hmap⟩ := Option.bind_eq_some_iff.mp (Except.ok.inj h)
  obtain ⟨xs', hxs', rfl⟩ := Option.map_eq_some_iff.mp hmap
  exact ⟨x', xs', rfl, hx' ▸ hx, hxs' ▸ hxs⟩

theorem writeMembers_cons {frames : ℕ} {key : PyKey} {value : PyValue} {fields : PyDict}
    {texts : List (List Char)} (h : writeMembers py frames ((key, value) :: fields) = .ok (some texts)) :
    ∃ literal x xs, texts = memberText literal x :: xs ∧ writeKey py key = .ok (some literal) ∧
      writeValue py frames value = .ok (some x) ∧ writeMembers py frames fields = .ok (some xs) := by
  obtain ⟨literal, hliteral, h⟩ := except_bind_eq_ok.mp h
  obtain ⟨x, hx, h⟩ := except_bind_eq_ok.mp h
  obtain ⟨xs, hxs, h⟩ := except_bind_eq_ok.mp h
  obtain ⟨literal', hliteral', hbind⟩ := Option.bind_eq_some_iff.mp (Except.ok.inj h)
  obtain ⟨x', hx', hmap⟩ := Option.bind_eq_some_iff.mp hbind
  obtain ⟨xs', hxs', rfl⟩ := Option.map_eq_some_iff.mp hmap
  exact ⟨literal', x', xs', rfl, hliteral' ▸ hliteral, hx' ▸ hx, hxs' ▸ hxs⟩

attribute [local irreducible] Json.intLimit in
mutual
/-- **The text of a value is read as that value**, with lists for its tuples. -/
theorem readAs_writeValue (hhooks : hooks.KeepsObjects) (v : PyValue) {frames k : ℕ} {text : List Char}
    (hw : writeValue py frames v = .ok (some text)) (hdepth : v.depth ≤ k)
    (hkeys : v.Everywhere PyValue.TextKeys) (hproper : v.Everywhere (PyValue.Proper py)) :
    ReadAs py hooks k text v.listed := by
  match v with
  | .none =>
    obtain rfl := Option.some.inj (Except.ok.inj hw)
    exact readAs_none
  | .bool b =>
    obtain rfl := Option.some.inj (Except.ok.inj hw)
    exact readAs_bool b
  | .int i =>
    rw [writeValue] at hw
    split_ifs at hw with hi
    obtain rfl := Option.some.inj (Except.ok.inj hw)
    exact readAs_int hi
  | .float (.finite x) =>
    obtain rfl := Option.some.inj (Except.ok.inj hw)
    exact readAs_float hproper
  | .float (.inf neg) => cases hw
  | .float .nan => cases hw
  | .str s => exact readAs_text (Except.ok.inj hw)
  | .list items =>
    obtain ⟨k, rfl⟩ := Nat.exists_eq_add_of_le' (Nat.le_trans (Nat.le_add_left 1 _) hdepth)
    obtain ⟨n, xs, rfl, hxs, rfl⟩ := writeItems_of_array hw
    exact readAs_bracket (readAs_writeItems hhooks items hxs (Nat.le_of_succ_le_succ hdepth) hkeys.2 hproper.2)
  | .tuple items =>
    obtain ⟨k, rfl⟩ := Nat.exists_eq_add_of_le' (Nat.le_trans (Nat.le_add_left 1 _) hdepth)
    obtain ⟨n, xs, rfl, hxs, rfl⟩ := writeItems_of_array ((writeValue_tuple frames items).symm.trans hw)
    exact readAs_bracket (readAs_writeItems hhooks items hxs (Nat.le_of_succ_le_succ hdepth) hkeys.2 hproper.2)
  | .dict fields =>
    obtain ⟨k, rfl⟩ := Nat.exists_eq_add_of_le' (Nat.le_trans (Nat.le_add_left 1 _) hdepth)
    obtain ⟨n, xs, rfl, hxs, rfl⟩ := writeMembers_of_object hw
    have hnodup : ((PyValue.listedFields fields).map Prod.fst).Nodup := by
      rw [keys_listedFields]
      exact hproper.1
    exact readAs_brace hhooks hnodup (readAs_writeMembers hhooks fields hxs (Nat.le_of_succ_le_succ hdepth)
      hkeys.1 hkeys.2 hproper.2)
  | .object typeName form => cases hw

theorem readAs_writeItems (hhooks : hooks.KeepsObjects) (items : List PyValue) {frames k : ℕ}
    {xs : List (List Char)} (hw : writeItems py frames items = .ok (some xs))
    (hdepth : PyValue.depthItems items ≤ k) (hkeys : PyValue.EverywhereItems PyValue.TextKeys items)
    (hproper : PyValue.EverywhereItems (PyValue.Proper py) items) :
    List.Forall₂ (ReadAs py hooks k) xs (PyValue.listedItems items) := by
  match items with
  | [] =>
    obtain rfl := Option.some.inj (Except.ok.inj hw)
    exact .nil
  | item :: items =>
    obtain ⟨x, rest, rfl, hx, hrest⟩ := writeItems_cons hw
    exact .cons
      (readAs_writeValue hhooks item hx (Nat.le_trans (Nat.le_max_left _ _) hdepth) hkeys.1 hproper.1)
      (readAs_writeItems hhooks items hrest (Nat.le_trans (Nat.le_max_right _ _) hdepth) hkeys.2 hproper.2)

theorem readAs_writeMembers (hhooks : hooks.KeepsObjects) (fields : PyDict) {frames k : ℕ}
    {xs : List (List Char)} (hw : writeMembers py frames fields = .ok (some xs))
    (hdepth : PyValue.depthFields fields ≤ k) (htext : ∀ key ∈ fields.map Prod.fst, ∃ s, key = .str s)
    (hkeys : PyValue.EverywhereFields PyValue.TextKeys fields)
    (hproper : PyValue.EverywhereFields (PyValue.Proper py) fields) :
    List.Forall₂ (ReadMember py hooks k) xs (PyValue.listedFields fields) := by
  match fields with
  | [] =>
    obtain rfl := Option.some.inj (Except.ok.inj hw)
    exact .nil
  | (key, value) :: fields =>
    obtain ⟨s, rfl⟩ := htext key List.mem_cons_self
    obtain ⟨literal, x, rest, rfl, hliteral, hx, hrest⟩ := writeMembers_cons hw
    have hvalue := readAs_writeValue hhooks value hx (Nat.le_trans (Nat.le_max_left _ _) hdepth) hkeys.1 hproper.1
    exact .cons ⟨s, literal, x, rfl, Except.ok.inj hliteral, rfl, .of_begins hvalue hvalue.1⟩
      (readAs_writeMembers hhooks fields hrest (Nat.le_trans (Nat.le_max_right _ _) hdepth)
        (fun key hkey => htext key (List.mem_cons_of_mem _ hkey)) hkeys.2 hproper.2)
end

/-- **A message that is dumped is loaded again**, with lists for its tuples. -/
theorem loads_dumps (hhooks : hooks.KeepsObjects) {message : PyDict} {text : List Char}
    (hw : dumps py message = .ok (some text)) (hdepth : (PyValue.dict message).depth ≤ py.scannerFrames)
    (hkeys : (PyValue.dict message).Everywhere PyValue.TextKeys)
    (hproper : (PyValue.dict message).Everywhere (PyValue.Proper py)) :
    ∃ fields, loads py hooks text = .ok (.obj fields) ∧
      PyValue.ofJsonFields fields = PyValue.listedFields message := by
  obtain ⟨hbegins, hread⟩ := readAs_writeValue hhooks (.dict message) hw hdepth hkeys hproper
  obtain ⟨j, hscan, hj⟩ := hread [] (fun c hc => by cases hc)
  have hbom : text.head? ≠ some '\uFEFF' := by
    obtain ⟨c, tail, rfl, hc⟩ := hbegins
    rintro hc'
    obtain rfl := Option.some.inj hc'
    exact absurd hc (by decide)
  cases j with
  | obj fields =>
    refine ⟨fields, ?_, PyValue.dict.inj hj⟩
    rw [List.append_nil] at hscan
    rw [loads, if_neg hbom, skipSpace_of_begins hbegins, hscan]
    rfl
  | _ => cases hj

end Values

end Rpr
