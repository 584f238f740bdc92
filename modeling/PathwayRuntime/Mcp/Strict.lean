import PathwayRuntime.Ledger.Identity
import PathwayRuntime.Model.Admission
import PathwayRuntime.Resume.Agree

/-!
# The two validators of strict JSON

* `PyValue.IsStrict`: what both accept, by its form and its three limits.
* `strictJsonPlain_agrees`: the validators accept the same values, with the same copy and the same budget left.
* **`strict_validators_agree`**: both accept exactly strict JSON and return its plain copy.
-/

set_option autoImplicit false

namespace Rpr

open Resume

/-- Strict JSON within the limits: the nodes, the bytes of the texts and the nesting of containers. -/
structure PyValue.IsStrict (v : PyValue) : Prop where
  json : v.Everywhere PyValue.IsJson
  nodes : v.nodes ≤ 10000
  textBytes : v.textBytes ≤ 1000000
  depth : v.depth ≤ 64

/-! ## The budgets -/

/-- Both validators have spent the same, and no more bytes than there are: admission checks them again with
every node, the ledger does not. -/
def Shares (b : JsonBudget) (b' : FingerprintBudget) : Prop :=
  b' = ⟨b.nodes, b.stringBytes⟩ ∧ b.stringBytes ≤ maxStringBytes

/-- Both return the same copy, and have spent the same. -/
def SameCopy {α : Type} (r : α × JsonBudget) (r' : α × FingerprintBudget) : Prop :=
  r.1 = r'.1 ∧ Shares r.2 r'.2

section Budget

variable {b : JsonBudget} {b' : FingerprintBudget} (path path' : String)

/-- A node that is no text. -/
theorem consume_agrees (h : Shares b b') : Agree Shares (b.consume path 0) (b'.addNode path') := by
  obtain ⟨rfl, hbytes⟩ := h
  rw [JsonBudget.consume, FingerprintBudget.addNode]
  by_cases hnodes : b.nodes + 1 > maxNodes
  · rw [if_pos (show b.nodes + 1 > maxJsonNodes from hnodes), if_pos hnodes]
    trivial
  · rw [if_neg (show ¬ b.nodes + 1 > maxJsonNodes from hnodes), if_neg hnodes, JsonBudget.addStringBytes,
      if_neg (show ¬ b.stringBytes + 0 > maxJsonStringBytes from Nat.not_lt_of_le hbytes)]
    exact ⟨rfl, hbytes⟩

/-- The bytes of a text. -/
theorem addStringBytes_agrees (s : PyText) (h : Shares b b') :
    Agree Shares (utf8Size s >>= fun n => b.addStringBytes path n) (b'.addText path' s) := by
  obtain ⟨rfl, hbytes⟩ := h
  cases s with
  | lone codes hcodes => trivial
  | utf8 s =>
    show Agree Shares (b.addStringBytes path s.utf8ByteSize) _
    rw [JsonBudget.addStringBytes, FingerprintBudget.addText]
    by_cases hmore : b.stringBytes + s.utf8ByteSize > maxStringBytes
    · rw [if_pos (show b.stringBytes + s.utf8ByteSize > maxJsonStringBytes from hmore), if_pos hmore]
      trivial
    · rw [if_neg (show ¬ b.stringBytes + s.utf8ByteSize > maxJsonStringBytes from hmore), if_neg hmore]
      exact ⟨rfl, Nat.le_of_not_lt hmore⟩

/-- A text: admission takes its node and its bytes at once, the ledger one after the other. -/
theorem consumeText_agrees (s : PyText) (h : Shares b b') :
    Agree Shares (utf8Size s >>= fun n => b.consume path n) (b'.addNode path' >>= fun b' => b'.addText path' s) := by
  have hshares : Shares ⟨b.nodes + 1, b.stringBytes⟩ ⟨b.nodes + 1, b.stringBytes⟩ := ⟨rfl, h.2⟩
  have htext := addStringBytes_agrees path path' s hshares
  obtain ⟨rfl, hbytes⟩ := h
  simp only [JsonBudget.consume, FingerprintBudget.addNode]
  by_cases hnodes : b.nodes + 1 > maxNodes
  · rw [if_pos hnodes]
    simp only [if_pos (show b.nodes + 1 > maxJsonNodes from hnodes)]
    cases s <;> trivial
  · rw [if_neg hnodes]
    simp only [if_neg (show ¬ b.nodes + 1 > maxJsonNodes from hnodes)]
    exact htext

theorem checkNesting_agrees (depth : ℕ) :
    Agree (fun _ _ => True) (checkJsonNesting path depth) (checkNesting path' depth) := by
  rw [checkJsonNesting, checkNesting]
  by_cases h : depth ≥ maxNesting
  · rw [if_pos (show depth ≥ maxJsonNesting from h), if_pos h]
    trivial
  · rw [if_neg (show ¬ depth ≥ maxJsonNesting from h), if_neg h]
    trivial

end Budget

/-! ## The validators -/

mutual
/-- **The validators accept the same values**, with the same copy and the same budget left. -/
theorem strictJsonPlain_agrees (v : PyValue) (path path' : String) (depth : ℕ) {b : JsonBudget}
    {b' : FingerprintBudget} (h : Shares b b') :
    Agree SameCopy (strictJsonPlain path depth v b) (strictJson path' depth v b') := by
  match v with
  | .none | .bool _ | .int _ =>
    rw [strictJsonPlain, strictJson]
    exact (consume_agrees path path' h).bind fun _ _ h => ⟨rfl, h⟩
  | .float x =>
    rw [strictJsonPlain, strictJson]
    refine (consume_agrees path path' h).bind fun b b' h => ?_
    by_cases hx : x.isFinite = true
    · rw [if_pos hx, if_pos hx]
      exact ⟨rfl, h⟩
    · rw [if_neg hx, if_neg hx]
      trivial
  | .str s =>
    rw [strictJsonPlain, strictJson]
    have htext : Agree SameCopy ((utf8Size s >>= fun n => b.consume path n) >>= fun b => .ok (Json.str s, b))
        ((b'.addNode path' >>= fun b' => b'.addText path' s) >>= fun b' => .ok (Json.str s, b')) :=
      (consumeText_agrees path path' s h).bind fun _ _ h => ⟨rfl, h⟩
    simpa only [bind_assoc] using htext
  | .list items | .tuple items =>
    rw [strictJsonPlain, strictJson]
    refine (consume_agrees path path' h).bind fun b b' h => ?_
    refine (checkNesting_agrees path path' depth).bind fun _ _ _ => ?_
    exact (strictJsonPlainItems_agrees items path path' (depth + 1) 0 h).bind
      fun _ _ h => ⟨congrArg Json.arr h.1, h.2⟩
  | .dict fields =>
    rw [strictJsonPlain, strictJson]
    refine (consume_agrees path path' h).bind fun b b' h => ?_
    refine (checkNesting_agrees path path' depth).bind fun _ _ _ => ?_
    exact (strictJsonPlainFields_agrees fields path path' (depth + 1) [] h).bind
      fun _ _ h => ⟨congrArg Json.obj h.1, h.2⟩
  | .object typeName form =>
    rw [strictJsonPlain, strictJson]
    exact (consume_agrees path path' h).bind fun _ _ _ => trivial

theorem strictJsonPlainItems_agrees (items : List PyValue) (path path' : String) (depth i : ℕ) {b : JsonBudget}
    {b' : FingerprintBudget} (h : Shares b b') :
    Agree SameCopy (strictJsonPlainItems path depth i items b) (strictItems path' depth i items b') := by
  match items with
  | [] =>
    rw [strictJsonPlainItems, strictItems]
    exact ⟨rfl, h⟩
  | item :: items =>
    rw [strictJsonPlainItems, strictItems]
    refine (strictJsonPlain_agrees item _ _ depth h).bind fun (j, b) (j', b') h => ?_
    obtain ⟨rfl, h⟩ := h
    exact (strictJsonPlainItems_agrees items path path' depth (i + 1) h).bind
      fun _ _ h => ⟨congrArg (j :: ·) h.1, h.2⟩

theorem strictJsonPlainFields_agrees (fields : PyDict) (path path' : String) (depth : ℕ)
    (result : List (PyText × Json)) {b : JsonBudget} {b' : FingerprintBudget} (h : Shares b b') :
    Agree SameCopy (strictJsonPlainFields path depth fields result b)
      (strictFields path' depth fields result b') := by
  match fields with
  | [] =>
    rw [strictJsonPlainFields, strictFields]
    exact ⟨rfl, h⟩
  | (.other form, item) :: fields =>
    rw [strictJsonPlainFields, strictFields]
    trivial
  | (.str key, item) :: fields =>
    rw [strictJsonPlainFields, strictFields, ← bind_assoc]
    refine (addStringBytes_agrees path path' key h).bind fun b b' h => ?_
    refine (strictJsonPlain_agrees item _ _ depth h).bind fun (j, b) (j', b') h => ?_
    obtain ⟨rfl, h⟩ := h
    exact strictJsonPlainFields_agrees fields path path' depth _ h
end

/-- The ledger accepts strict JSON. -/
theorem strictJson_iff {v : PyValue} {path : String} {j : Json} :
    (∃ b, strictJson path 0 v ⟨0, 0⟩ = .ok (j, b)) ↔ v.IsStrict ∧ j = v.plain := by
  have hzero : (⟨0, 0⟩ : FingerprintBudget).Allows 0 0 0 := ⟨by decide, by decide, by decide⟩
  constructor
  · rintro ⟨b, h⟩
    obtain ⟨hjson, ⟨hdepth, hnodes, hbytes⟩, rfl, -⟩ := (strictJson_eq_ok v hzero).mp h
    rw [Nat.zero_add] at hdepth hnodes hbytes
    exact ⟨⟨hjson, hnodes, hbytes, hdepth⟩, rfl⟩
  · rintro ⟨hstrict, rfl⟩
    have hallows : (⟨0, 0⟩ : FingerprintBudget).Allows (0 + v.depth) v.nodes v.textBytes := by
      refine ⟨?_, ?_, ?_⟩
      all_goals rw [Nat.zero_add]
      · exact hstrict.depth
      · exact hstrict.nodes
      · exact hstrict.textBytes
    exact ⟨_, (strictJson_eq_ok v hzero).mpr ⟨hstrict.json, hallows, rfl, rfl⟩⟩

/-- Admission accepts what the ledger accepts. -/
theorem strictJsonPlain_iff {v : PyValue} {path : String} {j : Json} :
    (∃ b, strictJsonPlain path 0 v ⟨0, 0⟩ = .ok (j, b)) ↔ v.IsStrict ∧ j = v.plain := by
  have hzero : Shares ⟨0, 0⟩ ⟨0, 0⟩ := ⟨rfl, by decide⟩
  have hagree := strictJsonPlain_agrees v path path 0 hzero
  rw [← strictJson_iff]
  constructor
  · rintro ⟨b, h⟩
    obtain ⟨⟨j', b'⟩, h', rfl, -⟩ := hagree.exists_right h
    exact ⟨b', h'⟩
  · rintro ⟨b', h'⟩
    obtain ⟨⟨j', b⟩, h, rfl, -⟩ := hagree.exists_left h'
    exact ⟨b, h⟩

/-- **The two validators agree.** Each accepts a value exactly when it is strict JSON within the limits, and
returns its plain copy. -/
theorem strict_validators_agree (v : PyValue) (path path' : String) (j : Json) :
    ((∃ b, strictJsonPlain path 0 v ⟨0, 0⟩ = .ok (j, b)) ↔ v.IsStrict ∧ j = v.plain) ∧
      ((∃ b, strictJson path' 0 v ⟨0, 0⟩ = .ok (j, b)) ↔ v.IsStrict ∧ j = v.plain) :=
  ⟨strictJsonPlain_iff, strictJson_iff⟩

end Rpr
