import Mathlib.Data.List.Basic
import Mathlib.Algebra.Ring.Nat
import Mathlib.Tactic.SplitIfs

/-!
# UTF-8

* `encodeUtf8`, `decodeUtf8`: `str.encode("utf-8")` of a text without surrogates, and the strict
  `bytes.decode("utf-8")`; a text that is encoded is decoded to itself.
* `lf_mem_encodeUtf8`: the byte `0x0A` encodes a line feed and nothing else.
-/

set_option autoImplicit false

namespace Rpr

/-- A Python `bytes`. -/
abbrev Bytes : Type := List UInt8

/-- `text.encode("utf-8")`. -/
def encodeUtf8 (text : List Char) : Bytes := text.flatMap String.utf8EncodeChar

/-- `data.decode("utf-8", errors="strict")`. -/
def decodeUtf8 (data : Bytes) : Option (List Char) :=
  data.toByteArray.utf8Decode?.map Array.toList

/-- The byte of a line feed. -/
def lf : UInt8 := 10

theorem toByteArray_encodeUtf8 (text : List Char) :
    (encodeUtf8 text).toByteArray = text.utf8Encode := rfl

@[simp] theorem decodeUtf8_encodeUtf8 (text : List Char) : decodeUtf8 (encodeUtf8 text) = some text := by
  rw [decodeUtf8, toByteArray_encodeUtf8, List.utf8Decode?_utf8Encode]
  rfl

@[simp] theorem encodeUtf8_nil : encodeUtf8 [] = [] := rfl

@[simp] theorem encodeUtf8_append (a b : List Char) :
    encodeUtf8 (a ++ b) = encodeUtf8 a ++ encodeUtf8 b := List.flatMap_append

@[simp] theorem encodeUtf8_cons (c : Char) (text : List Char) :
    encodeUtf8 (c :: text) = String.utf8EncodeChar c ++ encodeUtf8 text := rfl

/-- `len(text.encode("utf-8"))`, character by character. -/
theorem length_encodeUtf8 (text : List Char) :
    (encodeUtf8 text).length = (text.map Char.utf8Size).sum := by
  induction text with
  | nil => rfl
  | cons c text ih =>
    rw [encodeUtf8_cons, List.length_append, String.length_utf8EncodeChar, ih, List.map_cons,
      List.sum_cons]

theorem lf_eq_ofNat {n : ℕ} : lf = UInt8.ofNat n ↔ n % 256 = 10 := by
  rw [← UInt8.toNat_inj, UInt8.toNat_ofNat']
  exact eq_comm

/-- A character of one byte is that byte; the bytes of the others are not ASCII. -/
theorem lf_mem_utf8EncodeChar {c : Char} : lf ∈ String.utf8EncodeChar c ↔ c = '\n' := by
  constructor
  · intro h
    have hv : c.val.toNat = 10 := by
      rw [String.utf8EncodeChar] at h
      split_ifs at h <;> simp only [List.mem_cons, List.not_mem_nil, or_false, lf_eq_ofNat] at h <;> omega
    exact Char.ext (UInt32.toNat_inj.mp hv)
  · rintro rfl
    decide

/-- **Line feeds are encoded by themselves.** -/
theorem lf_mem_encodeUtf8 {text : List Char} : lf ∈ encodeUtf8 text ↔ '\n' ∈ text := by
  simp only [encodeUtf8, List.mem_flatMap, lf_mem_utf8EncodeChar, exists_eq_right]

end Rpr
