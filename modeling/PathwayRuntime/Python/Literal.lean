import PathwayRuntime.Python.Exception
import PathwayRuntime.Python.Scan

/-!
# The `repr` of a text

* `PyText.literal`: the characters of `repr(s)`.
* `readCode_escapeCode`: an escape is read back; `escapes_inj`: escapes end at the quote.
* **`literal_inj`**: a literal ends where its text ends.
-/

set_option autoImplicit false

namespace Rpr

/-! ## Escapes -/

/-- The last digits of a number, to base 16. -/
def hexDigits : ℕ → ℕ → List Char
  | 0, _ => []
  | width + 1, n => hexDigits width (n / 16) ++ [Json.hexDigit (n % 16)]

section Literal

variable (isPrintable : ℕ → Bool)

/-- A code point in a literal; `isPrintable` is `str.isprintable` beyond ASCII. -/
def escapeCode (quote : Char) (c : ℕ) : List Char :=
  if c = quote.toNat ∨ c = '\\'.toNat then ['\\', Char.ofNat c]
  else if c = 9 then ['\\', 't']
  else if c = 10 then ['\\', 'n']
  else if c = 13 then ['\\', 'r']
  else if 0x20 ≤ c ∧ c < 0x7F ∨ 0x7F < c ∧ isPrintable c = true ∧ ¬ PyText.isSurrogate c then [Char.ofNat c]
  else if c < 0x100 then '\\' :: 'x' :: hexDigits 2 c
  else if c < 0x10000 then '\\' :: 'u' :: hexDigits 4 c
  else '\\' :: 'U' :: hexDigits 8 c

/-- Single quotes, unless the text has one of them and no double quote. -/
def PyText.quoteOf (s : PyText) : Char :=
  if '\''.toNat ∈ s.codes ∧ '"'.toNat ∉ s.codes then '"' else '\''

/-- `repr(s)`. -/
def PyText.literal (s : PyText) : List Char :=
  s.quoteOf :: s.codes.flatMap (escapeCode isPrintable s.quoteOf) ++ [s.quoteOf]

end Literal

/-! ## Reading back -/

def readHex (digits : List Char) : ℕ := digits.foldl (fun n c => n * 16 + (hexValue c).getD 0) 0

theorem length_hexDigits (width n : ℕ) : (hexDigits width n).length = width := by
  induction width generalizing n with
  | zero => rfl
  | succ width ih => rw [hexDigits, List.length_append, ih, List.length_singleton]

theorem readHex_hexDigits (width : ℕ) {n : ℕ} (h : n < 16 ^ width) : readHex (hexDigits width n) = n := by
  induction width generalizing n with
  | zero =>
    rw [Nat.pow_zero, Nat.lt_one_iff] at h
    rw [h]
    rfl
  | succ width ih =>
    have hdiv : n / 16 < 16 ^ width := by
      rw [Nat.pow_succ] at h
      exact Nat.div_lt_of_lt_mul (Nat.mul_comm _ _ ▸ h)
    have hhead := ih hdiv
    rw [readHex] at hhead
    rw [hexDigits, readHex, List.foldl_append, hhead, List.foldl_cons, List.foldl_nil,
      hexValue_hexDigit _ (Nat.mod_lt _ (by decide)), Option.getD_some]
    omega

/-- The code point that is escaped first, and what follows it. -/
def readCode : List Char → ℕ × List Char
  | '\\' :: 't' :: text => (9, text)
  | '\\' :: 'n' :: text => (10, text)
  | '\\' :: 'r' :: text => (13, text)
  | '\\' :: 'x' :: text => (readHex (text.take 2), text.drop 2)
  | '\\' :: 'u' :: text => (readHex (text.take 4), text.drop 4)
  | '\\' :: 'U' :: text => (readHex (text.take 8), text.drop 8)
  | '\\' :: c :: text => (c.toNat, text)
  | c :: text => (c.toNat, text)
  | [] => (0, [])

theorem readCode_of_ne {c : Char} (hc : c ≠ '\\') (text : List Char) : readCode (c :: text) = (c.toNat, text) := by
  rw [readCode] <;> simp [hc]

theorem take_hexDigits (width n : ℕ) (text : List Char) : (hexDigits width n ++ text).take width = hexDigits width n ∧
    (hexDigits width n ++ text).drop width = text :=
  ⟨List.take_left' (length_hexDigits width n), List.drop_left' (length_hexDigits width n)⟩

theorem toNat_lt (c : Char) : c.toNat < 16 ^ 8 := by
  rcases c.valid with h | ⟨-, h⟩
  · exact Nat.lt_trans h (by decide)
  · exact Nat.lt_trans h (by decide)

section Read

variable {isPrintable : ℕ → Bool} {quote : Char} (hquote : quote = '\'' ∨ quote = '"')

include hquote

/-- **An escape is read back.** -/
theorem readCode_escapeCode (c : Char) (text : List Char) :
    readCode (escapeCode isPrintable quote c.toNat ++ text) = (c.toNat, text) := by
  rw [escapeCode]
  split_ifs with hself htab hline hreturn hcopied hbyte hshort
  · have hc : c = '\'' ∨ c = '"' ∨ c = '\\' := by
      rcases hself with h | h
      · rw [Char.toNat_inj.mp h]
        exact hquote.imp_right .inl
      · exact .inr (.inr (Char.toNat_inj.mp h))
    rcases hc with rfl | rfl | rfl <;> rfl
  · rw [htab]
    rfl
  · rw [hline]
    rfl
  · rw [hreturn]
    rfl
  · rw [Char.ofNat_toNat]
    exact readCode_of_ne (fun h => hself (.inr (h ▸ rfl))) text
  · obtain ⟨htake, hdrop⟩ := take_hexDigits 2 c.toNat text
    simp only [List.cons_append, readCode, htake, hdrop, readHex_hexDigits 2 hbyte]
  · obtain ⟨htake, hdrop⟩ := take_hexDigits 4 c.toNat text
    simp only [List.cons_append, readCode, htake, hdrop, readHex_hexDigits 4 hshort]
  · obtain ⟨htake, hdrop⟩ := take_hexDigits 8 c.toNat text
    simp only [List.cons_append, readCode, htake, hdrop, readHex_hexDigits 8 (toNat_lt c)]

/-- An escape does not begin with the quote. -/
theorem head_escapeCode (c : Char) : ∃ d text, escapeCode isPrintable quote c.toNat = d :: text ∧ d ≠ quote := by
  have hback : '\\' ≠ quote := by rcases hquote with rfl | rfl <;> decide
  rw [escapeCode]
  split_ifs with hself
  all_goals first | exact ⟨_, _, rfl, hback⟩ | skip
  exact ⟨_, _, rfl, fun h => hself (.inl (by rw [← h, Char.ofNat_toNat]))⟩

/-- The escapes of a text end at the quote. -/
theorem escapes_inj {cs cs' text text' : List Char}
    (h : (cs.map Char.toNat).flatMap (escapeCode isPrintable quote) ++ quote :: text =
      (cs'.map Char.toNat).flatMap (escapeCode isPrintable quote) ++ quote :: text') : cs = cs' ∧ text = text' := by
  induction cs generalizing cs' with
  | nil =>
    cases cs' with
    | nil => exact ⟨rfl, (List.cons.inj h).2⟩
    | cons c' cs' =>
      obtain ⟨d, more, hd, hne⟩ := @head_escapeCode isPrintable quote hquote c'
      rw [List.map_cons, List.flatMap_cons, hd] at h
      exact absurd (List.cons.inj h).1.symm hne
  | cons c cs ih =>
    cases cs' with
    | nil =>
      obtain ⟨d, more, hd, hne⟩ := @head_escapeCode isPrintable quote hquote c
      rw [List.map_cons, List.flatMap_cons, hd] at h
      exact absurd (List.cons.inj h).1 hne
    | cons c' cs' =>
      rw [List.map_cons, List.map_cons, List.flatMap_cons, List.flatMap_cons, List.append_assoc, List.append_assoc] at h
      have hread := congrArg readCode h
      rw [readCode_escapeCode hquote, readCode_escapeCode hquote] at hread
      obtain ⟨hc, hrest⟩ := Prod.mk.inj hread
      obtain ⟨rfl, htext⟩ := ih hrest
      exact ⟨by rw [Char.toNat_inj.mp hc], htext⟩

end Read

theorem PyText.quoteOf_eq (s : PyText) : s.quoteOf = '\'' ∨ s.quoteOf = '"' := by
  unfold quoteOf
  split_ifs
  · exact .inr rfl
  · exact .inl rfl

/-- **A literal ends where its text ends.** -/
theorem literal_inj {isPrintable : ℕ → Bool} {s t : String} {text text' : List Char}
    (h : (PyText.utf8 s).literal isPrintable ++ text = (PyText.utf8 t).literal isPrintable ++ text') :
    s = t ∧ text = text' := by
  rw [PyText.literal, PyText.literal, List.cons_append, List.cons_append, List.cons_append, List.cons_append] at h
  obtain ⟨hquote, h⟩ := List.cons.inj h
  rw [List.append_assoc, List.append_assoc, ← hquote] at h
  obtain ⟨hs, htext⟩ := escapes_inj (PyText.quoteOf_eq (.utf8 s)) h
  exact ⟨String.toList_injective hs, htext⟩

end Rpr
