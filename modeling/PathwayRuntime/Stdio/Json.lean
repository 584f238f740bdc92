import PathwayRuntime.Python.RoundTrip
import PathwayRuntime.Stdio.Channel

/-!
# `json` as the codec calls it

* `McpStdioLineCodec.hooks`: no object has two members under one key, and no number is infinite.
* `JsonPlatform.json`: `json.dumps` and `json.loads` with these hooks.
* `json_oneLine`: no line feed is written; `json_dumps_error`, `json_loads_error`: what is raised.
-/

set_option autoImplicit false

namespace Rpr

namespace McpStdioLineCodec

variable (py : JsonPlatform)

/-- The loop of `_object_without_duplicates`. -/
def addMembers : List (PyText × Json) → List (PyText × Json) → Except PyException (List (PyText × Json))
  | [], value => .ok value
  | (key, item) :: pairs, value =>
    if key ∈ value.map Prod.fst then
      .error (.valueError (PyText.utf8 "duplicate JSON object member: " ++ py.repr key))
    else addMembers pairs (value ++ [(key, item)])

/-- `_object_without_duplicates`. -/
def objectWithoutDuplicates (pairs : List (PyText × Json)) : Except PyException Json :=
  (addMembers py pairs []).map Json.obj

/-- `_reject_nonfinite`. -/
def rejectNonfinite (value : String) : Except PyException Json :=
  .error (.valueError (PyText.utf8 ("non-finite JSON number is not allowed: " ++ value)))

def hooks : JsonHooks where
  objectPairs := objectWithoutDuplicates py
  parseConstant := rejectNonfinite

variable {py}

theorem addMembers_of_nodup {pairs value : List (PyText × Json)}
    (h : ((value ++ pairs).map Prod.fst).Nodup) : addMembers py pairs value = .ok (value ++ pairs) := by
  induction pairs generalizing value with
  | nil => rw [addMembers, List.append_nil]
  | cons f pairs ih =>
    obtain ⟨key, item⟩ := f
    rw [addMembers, if_neg (key_notMem_of_nodup h), ih (by simpa using h), List.append_assoc]
    rfl

theorem hooks_keepsObjects : (hooks py).KeepsObjects := by
  intro pairs h
  have hadd : addMembers py pairs [] = .ok ([] ++ pairs) := addMembers_of_nodup h
  simp only [hooks, objectWithoutDuplicates, hadd]
  rfl

theorem addMembers_error {pairs value : List (PyText × Json)} {e : PyException}
    (h : addMembers py pairs value = .error e) : e.name = "ValueError" := by
  induction pairs generalizing value with
  | nil => cases h
  | cons f pairs ih =>
    rw [addMembers] at h
    split_ifs at h
    · rw [← Except.error.inj h]
      rfl
    · exact ih h

end McpStdioLineCodec

/-- `json`, with the hooks of the codec. -/
def JsonPlatform.json (py : JsonPlatform) : JsonModule where
  dumps := dumps py
  loads := loads py (McpStdioLineCodec.hooks py)

/-- A platform on which every decimal number is a float. -/
def JsonPlatform.sample : JsonPlatform where
  encoderFrames := 900
  scannerFrames := 900
  keyText _ := .error (.typeError "keys must be str, int, float, bool or None")
  readFloat := .finite
  repr s := s
  decodeError _ := "Expecting value: line 1 column 1 (char 0)"
  keyText_error _ e h := by
    rw [← Except.error.inj h]
    rfl

variable {py : JsonPlatform}

/-! ## No line feed is written -/

theorem notMem_escape (c : Char) : '\n' ∉ Json.escape c := by
  have hdigit : ∀ n < 32, '\n' ≠ Json.hexDigit (n / 16) ∧ '\n' ≠ Json.hexDigit (n % 16) := by decide
  rw [Json.escape]
  split_ifs with h₁ h₂ h₃ h₄ h₅ h₆ h₇ h₈
  all_goals try decide
  · obtain ⟨hhigh, hlow⟩ := hdigit c.toNat h₈
    simp [hhigh, hlow]
  · simpa using Ne.symm h₃

theorem notMem_quote {s : PyText} {literal : List Char} (h : Json.quote s = some literal) :
    '\n' ∉ literal := by
  cases s with
  | lone codes hcodes => cases h
  | utf8 s =>
    obtain rfl := Option.some.inj h
    simp only [List.cons_append, List.mem_cons, List.mem_append, List.mem_flatMap, List.not_mem_nil]
    rintro (h | ⟨c, -, hc⟩ | h | h)
    · exact absurd h (by decide)
    · exact notMem_escape c hc
    · exact absurd h (by decide)
    · exact h

theorem notMem_commas {xs : List (List Char)} (h : ∀ x ∈ xs, '\n' ∉ x) : '\n' ∉ Json.commas xs := by
  induction xs with
  | nil => exact List.not_mem_nil
  | cons x xs ih =>
    obtain ⟨hx, hxs⟩ := List.forall_mem_cons.mp h
    cases xs with
    | nil => exact hx
    | cons y ys =>
      rw [commas_cons_cons]
      have hcomma : '\n' ≠ ',' := by decide
      simp [hx, hcomma, ih hxs]

theorem notMem_bracket {opening closing : Char} (hopening : '\n' ≠ opening) (hclosing : '\n' ≠ closing)
    {xs : List (List Char)} (h : ∀ x ∈ xs, '\n' ∉ x) : '\n' ∉ bracket opening closing xs := by
  simp [bracket, hopening, hclosing, notMem_commas h]

theorem notMem_decimalDigits (n : ℕ) : '\n' ∉ decimalDigits n := fun h =>
  absurd (isDigit_of_mem h) (by decide)

theorem notMem_signText (neg : Bool) : '\n' ∉ signText neg := by
  cases neg <;> decide

theorem notMem_repr (x : Decimal) : '\n' ∉ x.repr := by
  have hdigits := notMem_decimalDigits
  have htake : ∀ n k, '\n' ∉ (decimalDigits n).take k := fun n k h => hdigits n (List.mem_of_mem_take h)
  have hdrop : ∀ n k, '\n' ∉ (decimalDigits n).drop k := fun n k h => hdigits n (List.mem_of_mem_drop h)
  have htail : ∀ n, '\n' ∉ (decimalDigits n).tail := fun n h => hdigits n (List.mem_of_mem_tail h)
  have hzeros : ∀ k, '\n' ∉ List.replicate k '0' := fun k h => absurd (List.eq_of_mem_replicate h) (by decide)
  rw [Decimal.repr]
  simp only [toList_toString]
  rw [← signText]
  split_ifs <;> simp [notMem_signText, hdigits, htake, hdrop, htail, hzeros]

attribute [local irreducible] Json.intLimit in
mutual
/-- No line feed is written. -/
theorem notMem_writeValue (v : PyValue) {frames : ℕ} {text : List Char}
    (h : writeValue py frames v = .ok (some text)) : '\n' ∉ text := by
  match v with
  | .none =>
    obtain rfl := Option.some.inj (Except.ok.inj h)
    decide
  | .bool b =>
    obtain rfl := Option.some.inj (Except.ok.inj h)
    cases b <;> decide
  | .int i =>
    rw [writeValue] at h
    split_ifs at h
    obtain rfl := Option.some.inj (Except.ok.inj h)
    rw [toList_toString_int, List.mem_append, not_or]
    exact ⟨notMem_signText _, notMem_decimalDigits _⟩
  | .float (.finite x) =>
    obtain rfl := Option.some.inj (Except.ok.inj h)
    exact notMem_repr x
  | .float (.inf neg) => cases h
  | .float .nan => cases h
  | .str s => exact notMem_quote (Except.ok.inj h)
  | .list items =>
    obtain ⟨n, xs, rfl, hxs, rfl⟩ := writeItems_of_array h
    exact notMem_bracket (by decide) (by decide) (notMem_writeItems items hxs)
  | .tuple items =>
    obtain ⟨n, xs, rfl, hxs, rfl⟩ := writeItems_of_array ((writeValue_tuple frames items).symm.trans h)
    exact notMem_bracket (by decide) (by decide) (notMem_writeItems items hxs)
  | .dict fields =>
    obtain ⟨n, xs, rfl, hxs, rfl⟩ := writeMembers_of_object h
    exact notMem_bracket (by decide) (by decide) (notMem_writeMembers fields hxs)
  | .object typeName form => cases h

theorem notMem_writeItems (items : List PyValue) {frames : ℕ} {xs : List (List Char)}
    (h : writeItems py frames items = .ok (some xs)) : ∀ x ∈ xs, '\n' ∉ x := by
  match items with
  | [] =>
    obtain rfl := Option.some.inj (Except.ok.inj h)
    exact fun x hx => absurd hx List.not_mem_nil
  | item :: items =>
    obtain ⟨x, rest, rfl, hx, hrest⟩ := writeItems_cons h
    exact List.forall_mem_cons.mpr ⟨notMem_writeValue item hx, notMem_writeItems items hrest⟩

theorem notMem_writeMembers (fields : PyDict) {frames : ℕ} {xs : List (List Char)}
    (h : writeMembers py frames fields = .ok (some xs)) : ∀ x ∈ xs, '\n' ∉ x := by
  match fields with
  | [] =>
    obtain rfl := Option.some.inj (Except.ok.inj h)
    exact fun x hx => absurd hx List.not_mem_nil
  | (key, value) :: fields =>
    obtain ⟨literal, x, rest, rfl, hliteral, hx, hrest⟩ := writeMembers_cons h
    have hkey : '\n' ∉ literal := by
      cases key with
      | str s => exact notMem_quote (Except.ok.inj hliteral)
      | other form =>
        rw [writeKey] at hliteral
        cases hform : py.keyText form with
        | error e =>
          rw [hform] at hliteral
          cases hliteral
        | ok s =>
          rw [hform] at hliteral
          exact notMem_quote (Except.ok.inj hliteral)
    refine List.forall_mem_cons.mpr ⟨?_, notMem_writeMembers fields hrest⟩
    have hcolon : '\n' ≠ ':' := by decide
    simp [memberText, hkey, hcolon, notMem_writeValue value hx]
end

/-- **A message is written on one line.** -/
theorem json_oneLine {message : PyDict} {text : List Char} (h : py.json.dumps message = .ok (some text)) :
    '\n' ∉ text := notMem_writeValue (.dict message) h

/-- A message begins with a brace, which is one byte. -/
theorem json_first {message : PyDict} {text : List Char} (h : py.json.dumps message = .ok (some text)) :
    ∃ tail, encodeUtf8 text = 0x7b :: tail := by
  obtain ⟨n, xs, -, -, rfl⟩ := writeMembers_of_object h
  rw [bracket, List.cons_append, encodeUtf8_cons]
  exact ⟨_, rfl⟩

theorem json_noBom {message : PyDict} {text : List Char} (h : py.json.dumps message = .ok (some text)) :
    ¬ utf8Bom <+: encodeUtf8 text := by
  obtain ⟨tail, htail⟩ := json_first h
  rw [htail, utf8Bom, List.cons_prefix_cons]
  exact fun hbom => absurd hbom.1 (by decide)

/-! ## What is raised -/

/-- What `json.dumps` raises. -/
def DumpsError (e : PyException) : Prop := e.isAny ["TypeError", "ValueError"] = true ∨ e = recursionError

theorem dumpsError_bind {α β : Type} {x : Except PyException α} {f : α → Except PyException β}
    (hx : ∀ e, x = .error e → DumpsError e) (hf : ∀ a e, x = .ok a → f a = .error e → DumpsError e) :
    ∀ e, (x >>= f) = .error e → DumpsError e := by
  cases x with
  | error e' => exact fun e h => hx e (congrArg _ (Except.error.inj h))
  | ok a => exact fun e h => hf a e rfl h

theorem writeKey_error (key : PyKey) : ∀ e, writeKey py key = .error e → DumpsError e := by
  intro e h
  cases key with
  | str s => cases h
  | other form =>
    rw [writeKey] at h
    cases hform : py.keyText form with
    | ok s =>
      rw [hform] at h
      cases h
    | error e' =>
      rw [hform] at h
      exact Except.error.inj h ▸ .inl (py.keyText_error form e' hform)

attribute [local irreducible] Json.intLimit in
mutual
theorem writeValue_error (v : PyValue) (frames : ℕ) :
    ∀ e, writeValue py frames v = .error e → DumpsError e := by
  match v with
  | .none | .bool _ | .str _ => exact fun e h => (nomatch h)
  | .int i =>
    intro e h
    rw [writeValue] at h
    split_ifs at h
    exact .inl (Except.error.inj h ▸ rfl)
  | .float x =>
    intro e h
    rw [writeValue] at h
    split_ifs at h
    exact .inl (Except.error.inj h ▸ rfl)
  | .list items | .tuple items =>
    cases frames with
    | zero => exact fun e h => .inr (Except.error.inj h).symm
    | succ n => exact dumpsError_bind (writeItems_error items n) fun xs e _ h => by cases h
  | .dict fields =>
    cases frames with
    | zero => exact fun e h => .inr (Except.error.inj h).symm
    | succ n => exact dumpsError_bind (writeMembers_error fields n) fun xs e _ h => by cases h
  | .object typeName form => exact fun e h => .inl (Except.error.inj h ▸ rfl)

theorem writeItems_error (items : List PyValue) (frames : ℕ) :
    ∀ e, writeItems py frames items = .error e → DumpsError e := by
  match items with
  | [] => exact fun e h => (nomatch h)
  | item :: items =>
    exact dumpsError_bind (writeValue_error item frames) fun x e _ h =>
      dumpsError_bind (writeItems_error items frames) (fun xs e _ h => by cases h) e h

theorem writeMembers_error (fields : PyDict) (frames : ℕ) :
    ∀ e, writeMembers py frames fields = .error e → DumpsError e := by
  match fields with
  | [] => exact fun e h => (nomatch h)
  | (key, value) :: fields =>
    exact dumpsError_bind (writeKey_error key) fun k e _ h =>
      dumpsError_bind (writeValue_error value frames) (fun v e _ h =>
        dumpsError_bind (writeMembers_error fields frames) (fun xs e _ h => by cases h) e h) e h
end

/-- **What `json.dumps` raises**: a `TypeError`, a `ValueError` or a `RecursionError`. -/
theorem json_dumps_error {message : PyDict} {e : PyException} (h : py.json.dumps message = .error e) :
    DumpsError e := writeValue_error (.dict message) py.encoderFrames e h

/-- What `json.loads` raises. -/
def LoadsError (e : PyException) : Prop := e.isA "ValueError" = true ∨ e = recursionError

/-- Why a scanner with these hooks reads no value. -/
def ScanError.Expected : ScanError → Prop
  | .syntactic => True
  | .raised e => LoadsError e

/-- A scanner fails for the expected reasons only. -/
def Scans {α : Type} (scan : List Char → Scanned α) : Prop := ∀ text e, scan text = .error e → e.Expected

theorem map_error {ε α β : Type} {x : Except ε α} {f : α → β} {e : ε} (h : x.map f = .error e) :
    x = .error e := by
  cases x with
  | error e' => exact congrArg _ (Except.error.inj h)
  | ok a => cases h

theorem scanString_error (text : List Char) (e : ScanError) (h : scanString text = .error e) : e.Expected := by
  fun_induction scanString text
  case case2 => cases h
  case case4 ih => exact ih (map_error h)
  case case7 ih => exact ih (map_error h)
  case case10 ih => exact ih (map_error h)
  all_goals exact Except.error.inj h ▸ trivial

theorem scanText_error : Scans scanText := fun text e h => scanString_error text e (map_error h)

theorem scanNumber_error : Scans (scanNumber py) := by
  intro text e h
  rw [scanNumber] at h
  dsimp only at h
  cases hint : scanInteger (scanSign text).2 with
  | none =>
    rw [hint] at h
    exact Except.error.inj h ▸ trivial
  | some r =>
    rw [hint] at h
    dsimp only at h
    split_ifs at h
    have hdigits := map_error h
    rw [intOfDigits] at hdigits
    split_ifs at hdigits
    exact Except.error.inj hdigits ▸ .inl rfl

theorem scanWord_error {text : List Char} {r : Scanned Json}
    (h : scanWord (McpStdioLineCodec.hooks py) text = some r) : ∀ e, r = .error e → e.Expected := by
  rintro e rfl
  rw [scanWord] at h
  obtain ⟨⟨word, value⟩, hmem, h⟩ := List.exists_of_findSome?_eq_some h
  dsimp only at h
  split_ifs at h
  have hvalue := map_error (Option.some.inj h)
  -- Only the words for numbers that are not finite raise.
  have hwords : ∀ w ∈ words (McpStdioLineCodec.hooks py), ∀ e, w.2 = .error e → e.isA "ValueError" = true := by
    intro w hw e he
    simp only [words, List.mem_cons, List.not_mem_nil, or_false] at hw
    rcases hw with rfl | rfl | rfl | rfl | rfl | rfl <;> cases he <;> rfl
  cases hv : value with
  | ok j =>
    rw [hv] at hvalue
    cases hvalue
  | error e' =>
    rw [hv] at hvalue
    exact Except.error.inj hvalue ▸ .inl (hwords _ hmem e' hv)

section Nested

variable {scan : List Char → Scanned Json}

theorem scanItems_error (hscan : Scans scan) (turns : ℕ) : Scans (scanItems scan turns) := by
  induction turns with
  | zero => exact fun text e h => Except.error.inj h ▸ trivial
  | succ turns ih =>
    intro text e h
    rw [scanItems] at h
    cases hitem : scan text with
    | error e' =>
      rw [hitem] at h
      exact Except.error.inj h ▸ hscan text e' hitem
    | ok r =>
      rw [hitem] at h
      dsimp only at h
      split at h
      · exact ih _ _ (map_error h)
      · cases h
      · exact Except.error.inj h ▸ trivial

theorem scanArray_error (hscan : Scans scan) : Scans (scanArray scan) := by
  intro text e h
  rw [scanArray] at h
  split at h
  · cases h
  · exact scanItems_error hscan _ _ _ h

theorem scanMembers_error (hscan : Scans scan) (turns : ℕ) : Scans (scanMembers scan turns) := by
  induction turns with
  | zero => exact fun text e h => Except.error.inj h ▸ trivial
  | succ turns ih =>
    intro text e h
    rw [scanMembers.eq_def] at h
    split at h
    · rename_i turns' body heq
      obtain rfl := Nat.succ.inj heq
      cases hkey : scanText body with
      | error e' =>
        rw [hkey] at h
        exact Except.error.inj h ▸ scanText_error _ _ hkey
      | ok r =>
        rw [hkey] at h
        dsimp only at h
        split at h
        · rename_i rest hrest
          cases hvalue : scan (skipSpace rest) with
          | error e' =>
            rw [hvalue] at h
            exact Except.error.inj h ▸ hscan _ _ hvalue
          | ok r' =>
            rw [hvalue] at h
            dsimp only at h
            split at h
            · exact ih _ _ (map_error h)
            · cases h
            · exact Except.error.inj h ▸ trivial
        · exact Except.error.inj h ▸ trivial
    · exact Except.error.inj h ▸ trivial

theorem scanObject_error (hscan : Scans scan) : Scans (scanObject scan) := by
  intro text e h
  rw [scanObject] at h
  split at h
  · cases h
  · exact scanMembers_error hscan _ _ _ h

end Nested

theorem scanValue_error {nested : Option (List Char → Scanned Json)} (hnested : ∀ scan ∈ nested, Scans scan) :
    Scans (scanValue py (McpStdioLineCodec.hooks py) nested) := by
  intro text e h
  rw [scanValue.eq_def] at h
  split at h
  · exact scanText_error _ _ (map_error h)
  · cases nested with
    | none => exact Except.error.inj h ▸ .inr rfl
    | some scan => exact scanArray_error (hnested scan rfl) _ _ (map_error h)
  · cases nested with
    | none => exact Except.error.inj h ▸ .inr rfl
    | some scan =>
      rename_i body
      dsimp only at h
      cases hobject : scanObject scan body with
      | error e' =>
        rw [hobject] at h
        exact Except.error.inj h ▸ scanObject_error (hnested scan rfl) _ _ hobject
      | ok r =>
        rw [hobject] at h
        have hpairs := map_error h
        cases hhook : (McpStdioLineCodec.hooks py).objectPairs r.1 with
        | ok j =>
          rw [hhook] at hpairs
          cases hpairs
        | error e' =>
          rw [hhook] at hpairs
          have hname := McpStdioLineCodec.addMembers_error (map_error hhook)
          exact Except.error.inj hpairs ▸ .inl (by simp [PyException.isA, hname])
  · cases hword : scanWord (McpStdioLineCodec.hooks py) text with
    | some r =>
      rw [hword] at h
      exact scanWord_error hword e h
    | none =>
      rw [hword] at h
      exact scanNumber_error _ _ h

theorem scanOnce_error (frames : ℕ) : Scans (scanOnce py (McpStdioLineCodec.hooks py) frames) := by
  induction frames with
  | zero => exact scanValue_error fun scan h => by cases h
  | succ frames ih => exact scanValue_error fun scan h => Option.some.inj h ▸ ih

/-- **What `json.loads` raises**: a `ValueError` or a `RecursionError`. -/
theorem json_loads_error {text : List Char} {e : PyException} (h : py.json.loads text = .error e) :
    LoadsError e := by
  have hdecode : LoadsError (jsonDecodeError py text) := .inl rfl
  rw [JsonPlatform.json] at h
  simp only [loads] at h
  split_ifs at h
  · exact Except.error.inj h ▸ hdecode
  split at h
  · exact Except.error.inj h ▸ hdecode
  · rename_i e' hscan
    exact Except.error.inj h ▸ scanOnce_error _ _ _ hscan
  · split_ifs at h
    exact Except.error.inj h ▸ hdecode

end Rpr
