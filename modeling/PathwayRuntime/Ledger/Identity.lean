import PathwayRuntime.Model.Attempts
import PathwayRuntime.Model.Column
import PathwayRuntime.Python.Exception
import PathwayRuntime.Python.Measure

/-!
# The limits of a request identity

* `FingerprintBudget.Allows`: so much may still be spent at this depth.
* `PyValue.plain`: the plain JSON copy of a payload.
* **`strictJson_eq_ok`**: which values are strict JSON, what is kept of them and what they spend.
* **`canonicalIdentity_iff`**: which requests have an identity.
-/

set_option autoImplicit false

namespace Rpr

namespace FingerprintBudget

/-- The budget after so much was spent. -/
def spend (b : FingerprintBudget) (nodes stringBytes : ℕ) : FingerprintBudget :=
  ⟨b.nodes + nodes, b.stringBytes + stringBytes⟩

/-- Containers may be nested so deep, and so much may be spent. -/
structure Allows (b : FingerprintBudget) (depth nodes stringBytes : ℕ) : Prop where
  depth : depth ≤ maxNesting
  nodes : b.nodes + nodes ≤ maxNodes
  stringBytes : b.stringBytes + stringBytes ≤ maxStringBytes

variable {b b' : FingerprintBudget} {path : String}

theorem addNode_eq_ok : b.addNode path = .ok b' ↔ b.nodes + 1 ≤ maxNodes ∧ b' = b.spend 1 0 := by
  rw [addNode, spend]
  split_ifs with h
  · simp [Nat.not_le_of_gt h]
  · simp [Nat.le_of_not_lt h, eq_comm]

theorem addText_eq_ok {s : PyText} : b.addText path s = .ok b' ↔
    s.IsUtf8 ∧ b.stringBytes + s.bytes ≤ maxStringBytes ∧ b' = b.spend 0 s.bytes := by
  cases s with
  | lone codes hcodes => simp [addText, PyText.IsUtf8]
  | utf8 s =>
    rw [addText, spend]
    split_ifs with h
    · simp [PyText.bytes, Nat.not_le_of_gt h]
    · simp [PyText.IsUtf8, PyText.bytes, Nat.le_of_not_lt h, eq_comm]

@[simp] theorem spend_spend (n s n' s' : ℕ) : (b.spend n s).spend n' s' = b.spend (n + n') (s + s') := by
  simp [spend, Nat.add_assoc]

@[simp] theorem spend_zero : b.spend 0 0 = b := rfl

/-- What may be spent at once may be spent in two steps. -/
theorem allows_spend {depth n s n' s' : ℕ} :
    (b.spend n s).Allows depth n' s' ↔ b.Allows depth (n + n') (s + s') := by
  constructor
  · rintro ⟨hdepth, hnodes, hbytes⟩
    exact ⟨hdepth, by simpa [spend, Nat.add_assoc] using hnodes, by simpa [spend, Nat.add_assoc] using hbytes⟩
  · rintro ⟨hdepth, hnodes, hbytes⟩
    exact ⟨hdepth, by simpa [spend, Nat.add_assoc] using hnodes, by simpa [spend, Nat.add_assoc] using hbytes⟩

/-- A container, and what is in it. -/
theorem allows_enter {depth height n s : ℕ} :
    (b.spend 1 0).Allows (depth + 1 + height) n s ↔ b.Allows (depth + (height + 1)) (1 + n) s := by
  rw [Nat.add_right_comm, Nat.add_assoc, allows_spend, Nat.zero_add]

/-- What is left after a value at some depth. -/
theorem Allows.rest {depth height n s : ℕ} (h : b.Allows (depth + height) n s) :
    (b.spend n s).Allows depth 0 0 :=
  allows_spend.mpr ⟨(Nat.le_add_right _ _).trans h.depth, h.nodes, h.stringBytes⟩

/-- A value, and what comes after it. -/
theorem Allows.split {depth n s depth' n' s' : ℕ} (h : b.Allows (max depth depth') (n + n') (s + s')) :
    b.Allows depth n s ∧ (b.spend n s).Allows depth' n' s' := by
  refine ⟨⟨(Nat.le_max_left _ _).trans h.depth, ?_, ?_⟩, allows_spend.mpr
    ⟨(Nat.le_max_right _ _).trans h.depth, h.nodes, h.stringBytes⟩⟩
  · exact (Nat.add_le_add_left (Nat.le_add_right _ _) _).trans h.nodes
  · exact (Nat.add_le_add_left (Nat.le_add_right _ _) _).trans h.stringBytes

theorem Allows.join {depth height n s height' n' s' : ℕ} (h : b.Allows (depth + height) n s)
    (h' : (b.spend n s).Allows (depth + height') n' s') : b.Allows (depth + max height height') (n + n') (s + s') := by
  have hall := allows_spend.mp h'
  rw [← Nat.add_max_add_left]
  exact ⟨Nat.max_le.mpr ⟨h.depth, hall.depth⟩, hall.nodes, hall.stringBytes⟩

/-- What is left before anything is spent. -/
theorem Allows.start {depth height n s : ℕ} (h : b.Allows (depth + height) n s) : b.Allows depth 0 0 :=
  ⟨(Nat.le_add_right _ _).trans h.depth, (Nat.le_add_right _ _).trans h.nodes,
    (Nat.le_add_right _ _).trans h.stringBytes⟩

end FingerprintBudget

theorem checkNesting_eq_ok {path : String} {depth : ℕ} :
    checkNesting path depth = .ok () ↔ depth + 1 ≤ maxNesting := by
  rw [checkNesting]
  split_ifs with h
  · simp only [false_iff]
    omega
  · simp only [true_iff]
    omega

/-! ## Strict JSON -/

namespace PyValue

mutual
/-- The values in a value, itself among them. -/
def nodes : PyValue → ℕ
  | .list items | .tuple items => 1 + nodesItems items
  | .dict fields => 1 + nodesFields fields
  | _ => 1

def nodesItems : List PyValue → ℕ
  | [] => 0
  | item :: items => nodes item + nodesItems items

def nodesFields : PyDict → ℕ
  | [] => 0
  | (_, value) :: fields => nodes value + nodesFields fields
end

mutual
/-- The UTF-8 bytes of its texts, the keys among them. -/
def textBytes : PyValue → ℕ
  | .str s => s.bytes
  | .list items | .tuple items => textBytesItems items
  | .dict fields => textBytesFields fields
  | _ => 0

def textBytesItems : List PyValue → ℕ
  | [] => 0
  | item :: items => textBytes item + textBytesItems items

def textBytesFields : PyDict → ℕ
  | [] => 0
  | (key, value) :: fields => key.form.bytes + (textBytes value + textBytesFields fields)
end

mutual
/-- The plain JSON copy of a payload: lists for tuples, and the last value under every key. -/
def plain : PyValue → Json
  | .none => .null
  | .bool b => .bool b
  | .int i => .int i
  | .float x => .float x
  | .str s => .str s
  | .list items | .tuple items => .arr (plainItems items)
  | .dict fields => .obj (plainFields fields [])
  | .object _ _ => .null

def plainItems : List PyValue → List Json
  | [] => []
  | item :: items => plain item :: plainItems items

def plainFields : PyDict → List (PyText × Json) → List (PyText × Json)
  | [], result => result
  | (.str key, value) :: fields, result => plainFields fields (setField key (plain value) result)
  | (.other _, _) :: fields, result => plainFields fields result
end

/-- A text that UTF-8 can encode. -/
def IsJsonKey : PyKey → Prop
  | .str s => s.IsUtf8
  | .other _ => False

/-- Null, a truth value, an integer, a finite float, an encodable text, a list, a tuple or a mapping with such
texts for keys. -/
def IsJson : PyValue → Prop
  | .float x => x.isFinite = true
  | .str s => s.IsUtf8
  | .dict fields => ∀ key ∈ fields.map Prod.fst, IsJsonKey key
  | .object _ _ => False
  | _ => True

end PyValue

open FingerprintBudget in
/-- A container is entered when its own node and its depth are allowed. -/
theorem enter_eq_ok {α : Type} {path : String} {depth : ℕ} {b : FingerprintBudget} (hb : b.Allows depth 0 0)
    {f : FingerprintBudget → Except PyError α} {r : α} :
    (do let b ← b.addNode path; checkNesting path depth; f b) = .ok r ↔
      (b.spend 1 0).Allows (depth + 1) 0 0 ∧ f (b.spend 1 0) = .ok r := by
  constructor
  · intro h
    obtain ⟨_, hnode, h⟩ := except_bind_eq_ok.mp h
    obtain ⟨hnodes, rfl⟩ := addNode_eq_ok.mp hnode
    obtain ⟨_, hnesting, h⟩ := except_bind_eq_ok.mp h
    exact ⟨allows_spend.mpr ⟨checkNesting_eq_ok.mp hnesting, hnodes, hb.stringBytes⟩, h⟩
  · rintro ⟨hallows, h⟩
    exact except_bind_eq_ok.mpr ⟨_, addNode_eq_ok.mpr ⟨(allows_spend.mp hallows).nodes, rfl⟩,
      except_bind_eq_ok.mpr ⟨(), checkNesting_eq_ok.mpr hallows.depth, h⟩⟩

open FingerprintBudget in
/-- A value without members is accepted when its node is allowed. -/
theorem leaf_eq_ok {path : String} {depth : ℕ} {b b' : FingerprintBudget} (hb : b.Allows depth 0 0) {j j' : Json} :
    (do .ok (j', ← b.addNode path)) = (.ok (j, b') : Except PyError (Json × FingerprintBudget)) ↔
      b.Allows (depth + 0) 1 0 ∧ j = j' ∧ b' = b.spend 1 0 := by
  constructor
  · intro h
    obtain ⟨_, hnode, h⟩ := except_bind_eq_ok.mp h
    obtain ⟨hnodes, rfl⟩ := addNode_eq_ok.mp hnode
    cases h
    exact ⟨⟨hb.depth, hnodes, hb.stringBytes⟩, rfl, rfl⟩
  · rintro ⟨hallows, rfl, rfl⟩
    exact except_bind_eq_ok.mpr ⟨_, addNode_eq_ok.mpr ⟨hallows.nodes, rfl⟩, rfl⟩

open PyValue FingerprintBudget in
mutual
/-- **Which values are strict JSON**: those JSON has, as far as the limits allow their depth and their weight.
Such a value is copied, and spends what it weighs. -/
theorem strictJson_eq_ok (v : PyValue) {path : String} {depth : ℕ} {b b' : FingerprintBudget} {j : Json}
    (hb : b.Allows depth 0 0) : strictJson path depth v b = .ok (j, b') ↔
      v.Everywhere IsJson ∧ b.Allows (depth + v.depth) v.nodes v.textBytes ∧ j = v.plain ∧
        b' = b.spend v.nodes v.textBytes := by
  match v with
  | .none | .bool _ | .int _ =>
    rw [strictJson, leaf_eq_ok hb]
    exact ⟨fun h => ⟨trivial, h⟩, And.right⟩
  | .float x =>
    rw [strictJson]
    constructor
    · intro h
      obtain ⟨_, hnode, h⟩ := except_bind_eq_ok.mp h
      obtain ⟨hnodes, rfl⟩ := addNode_eq_ok.mp hnode
      split_ifs at h with hx
      cases h
      exact ⟨hx, ⟨hb.depth, hnodes, hb.stringBytes⟩, rfl, rfl⟩
    · rintro ⟨hx, hallows, rfl, rfl⟩
      exact except_bind_eq_ok.mpr ⟨_, addNode_eq_ok.mpr ⟨hallows.nodes, rfl⟩, if_pos hx⟩
  | .str s =>
    rw [strictJson]
    constructor
    · intro h
      obtain ⟨_, hnode, h⟩ := except_bind_eq_ok.mp h
      obtain ⟨hnodes, rfl⟩ := addNode_eq_ok.mp hnode
      obtain ⟨_, htext, h⟩ := except_bind_eq_ok.mp h
      obtain ⟨hs, hbytes, rfl⟩ := addText_eq_ok.mp htext
      cases h
      exact ⟨hs, ⟨hb.depth, hnodes, hbytes⟩, rfl, by rw [spend_spend, Nat.zero_add]; rfl⟩
    · rintro ⟨hs, hallows, rfl, rfl⟩
      refine except_bind_eq_ok.mpr ⟨_, addNode_eq_ok.mpr ⟨hallows.nodes, rfl⟩, ?_⟩
      refine except_bind_eq_ok.mpr ⟨_, addText_eq_ok.mpr ⟨hs, hallows.stringBytes, rfl⟩, ?_⟩
      rw [spend_spend, Nat.zero_add]
      rfl
  | .list items | .tuple items =>
    rw [strictJson, enter_eq_ok hb, except_bind_eq_ok]
    constructor
    · rintro ⟨hinner, ⟨js, b₂⟩, hitems, h⟩
      cases h
      obtain ⟨hjson, hallows, rfl, rfl⟩ := (strictItems_eq_ok items hinner).mp hitems
      exact ⟨⟨trivial, hjson⟩, allows_enter.mp hallows, rfl, by rw [spend_spend, Nat.zero_add]; rfl⟩
    · rintro ⟨⟨-, hjson⟩, hallows, rfl, rfl⟩
      have hinner : (b.spend 1 0).Allows (depth + 1 + depthItems items) (nodesItems items) (textBytesItems items) :=
        allows_enter.mpr hallows
      refine ⟨hinner.start, _, (strictItems_eq_ok items hinner.start).mpr ⟨hjson, hinner, rfl, rfl⟩, ?_⟩
      rw [spend_spend, Nat.zero_add]
      rfl
  | .dict fields =>
    rw [strictJson, enter_eq_ok hb, except_bind_eq_ok]
    constructor
    · rintro ⟨hinner, ⟨out, b₂⟩, hfields, h⟩
      cases h
      obtain ⟨hkeys, hjson, hallows, rfl, rfl⟩ := (strictFields_eq_ok fields hinner).mp hfields
      exact ⟨⟨hkeys, hjson⟩, allows_enter.mp hallows, rfl, by rw [spend_spend, Nat.zero_add]; rfl⟩
    · rintro ⟨⟨hkeys, hjson⟩, hallows, rfl, rfl⟩
      have hinner : (b.spend 1 0).Allows (depth + 1 + depthFields fields) (nodesFields fields)
          (textBytesFields fields) := allows_enter.mpr hallows
      refine ⟨hinner.start, _, (strictFields_eq_ok fields hinner.start).mpr ⟨hkeys, hjson, hinner, rfl, rfl⟩, ?_⟩
      rw [spend_spend, Nat.zero_add]
      rfl
  | .object typeName form =>
    rw [strictJson]
    constructor
    · intro h
      obtain ⟨_, -, h⟩ := except_bind_eq_ok.mp h
      cases h
    · exact fun h => h.1.elim

theorem strictItems_eq_ok (items : List PyValue) {path : String} {depth i : ℕ} {b b' : FingerprintBudget}
    {js : List Json} (hb : b.Allows depth 0 0) : strictItems path depth i items b = .ok (js, b') ↔
      EverywhereItems IsJson items ∧ b.Allows (depth + depthItems items) (nodesItems items) (textBytesItems items) ∧
        js = plainItems items ∧ b' = b.spend (nodesItems items) (textBytesItems items) := by
  match items with
  | [] =>
    rw [strictItems]
    constructor
    · intro h
      cases h
      exact ⟨trivial, hb, rfl, rfl⟩
    · rintro ⟨-, -, rfl, rfl⟩
      rfl
  | item :: items =>
    simp only [strictItems, except_bind_eq_ok]
    constructor
    · rintro ⟨⟨j, b₁⟩, hitem, ⟨js, b₂⟩, hitems, h⟩
      cases h
      obtain ⟨hjson, hallows, rfl, rfl⟩ := (strictJson_eq_ok item hb).mp hitem
      obtain ⟨hjsons, hrest, rfl, rfl⟩ := (strictItems_eq_ok items hallows.rest).mp hitems
      exact ⟨⟨hjson, hjsons⟩, hallows.join hrest, rfl, spend_spend _ _ _ _⟩
    · rintro ⟨⟨hjson, hjsons⟩, hallows, rfl, rfl⟩
      rw [depthItems, ← Nat.add_max_add_left] at hallows
      obtain ⟨hfirst, hrest⟩ := hallows.split
      refine ⟨_, (strictJson_eq_ok item hb).mpr ⟨hjson, hfirst, rfl, rfl⟩, _,
        (strictItems_eq_ok items hfirst.rest).mpr ⟨hjsons, hrest, rfl, rfl⟩, ?_⟩
      rw [spend_spend]
      rfl

theorem strictFields_eq_ok (fields : PyDict) {path : String} {depth : ℕ} {b b' : FingerprintBudget}
    {result out : List (PyText × Json)} (hb : b.Allows depth 0 0) :
    strictFields path depth fields result b = .ok (out, b') ↔
      (∀ key ∈ fields.map Prod.fst, IsJsonKey key) ∧ EverywhereFields IsJson fields ∧
        b.Allows (depth + depthFields fields) (nodesFields fields) (textBytesFields fields) ∧
        out = plainFields fields result ∧ b' = b.spend (nodesFields fields) (textBytesFields fields) := by
  match fields with
  | [] =>
    rw [strictFields]
    constructor
    · intro h
      cases h
      exact ⟨fun _ hkey => (List.not_mem_nil hkey).elim, trivial, hb, rfl, rfl⟩
    · rintro ⟨-, -, -, rfl, rfl⟩
      rfl
  | (.other form, v) :: fields =>
    rw [strictFields]
    constructor
    · intro h
      cases h
    · rintro ⟨hkeys, -⟩
      exact (hkeys _ List.mem_cons_self).elim
  | (.str key, v) :: fields =>
    simp only [strictFields, except_bind_eq_ok]
    constructor
    · rintro ⟨b₀, hkey, ⟨j, b₁⟩, hv, h⟩
      obtain ⟨hutf8, hbytes, rfl⟩ := addText_eq_ok.mp hkey
      have hb₀ : (b.spend 0 key.bytes).Allows depth 0 0 := allows_spend.mpr ⟨hb.depth, hb.nodes, hbytes⟩
      obtain ⟨hjson, hallows, rfl, rfl⟩ := (strictJson_eq_ok v hb₀).mp hv
      obtain ⟨hkeys, hjsons, hrest, rfl, rfl⟩ := (strictFields_eq_ok fields hallows.rest).mp h
      refine ⟨List.forall_mem_cons.mpr ⟨hutf8, hkeys⟩, ⟨hjson, hjsons⟩, ?_, rfl, ?_⟩
      · have hall := allows_spend.mp (hallows.join hrest)
        rwa [Nat.zero_add] at hall
      · rw [spend_spend, spend_spend, Nat.zero_add]
        rfl
    · rintro ⟨hkeys, ⟨hjson, hjsons⟩, hallows, rfl, rfl⟩
      obtain ⟨hutf8, hkeys⟩ := List.forall_mem_cons.mp hkeys
      rw [depthFields, ← Nat.add_max_add_left] at hallows
      -- The key is paid for first, then the value, then the other members.
      have hkey : b.stringBytes + key.bytes ≤ maxStringBytes :=
        (Nat.add_le_add_left (Nat.le_add_right _ _) _).trans hallows.stringBytes
      obtain ⟨hfirst, hrest⟩ := (allows_spend (n := 0) (s := key.bytes)).mpr
        (by simpa only [nodesFields, textBytesFields, PyKey.form, Nat.zero_add] using hallows) |>.split
      have hb₀ : (b.spend 0 key.bytes).Allows depth 0 0 := allows_spend.mpr ⟨hb.depth, hb.nodes, hkey⟩
      refine ⟨_, addText_eq_ok.mpr ⟨hutf8, hkey, rfl⟩, _,
        (strictJson_eq_ok v hb₀).mpr ⟨hjson, hfirst, rfl, rfl⟩, ?_⟩
      refine (strictFields_eq_ok fields hfirst.rest).mpr ⟨hkeys, hjsons, hrest, rfl, ?_⟩
      rw [spend_spend, spend_spend, Nat.zero_add]
      rfl
end

/-! ### Of JSON -/

open PyValue Json in
mutual
/-- JSON with a member a key is its own plain copy. -/
theorem plain_ofJson (j : Json) (h : j.UniqueKeys) : (ofJson j).plain = j := by
  match j with
  | .null | .bool _ | .int _ | .float _ | .str _ => rfl
  | .arr items => rw [ofJson, plain, plainItems_ofJsonItems items h]
  | .obj fields => rw [ofJson, plain, plainFields_ofJsonFields fields [] h.1 h.2, List.nil_append]

theorem plainItems_ofJsonItems (items : List Json) (h : UniqueItems items) :
    plainItems (ofJsonItems items) = items := by
  match items with
  | [] => rfl
  | x :: items => rw [ofJsonItems, plainItems, plain_ofJson x h.1, plainItems_ofJsonItems items h.2]

theorem plainFields_ofJsonFields (fields result : List (PyText × Json))
    (hnd : ((result ++ fields).map Prod.fst).Nodup) (h : UniqueFields fields) :
    plainFields (ofJsonFields fields) result = result ++ fields := by
  match fields with
  | [] => exact (List.append_nil result).symm
  | (k, v) :: fields =>
    rw [ofJsonFields, plainFields, plain_ofJson v h.1, setField_of_notMem (key_notMem_of_nodup hnd),
      plainFields_ofJsonFields fields _ (by simpa using hnd) h.2, List.append_assoc]
    rfl
end

open PyValue Json in
mutual
/-- What it weighs. -/
theorem weight_ofJson (j : Json) :
    (ofJson j).nodes = JsonWeight.nodes.total j ∧ (ofJson j).textBytes = JsonWeight.stringBytes.total j := by
  match j with
  | .null | .bool _ | .int _ | .float _ | .str _ => exact ⟨rfl, rfl⟩
  | .arr items =>
    obtain ⟨hnodes, hbytes⟩ := weight_ofJsonItems items
    exact ⟨congrArg (1 + ·) hnodes, hbytes.trans (Nat.zero_add _).symm⟩
  | .obj fields =>
    obtain ⟨hnodes, hbytes⟩ := weight_ofJsonFields fields
    exact ⟨congrArg (1 + ·) hnodes, hbytes.trans (Nat.zero_add _).symm⟩

theorem weight_ofJsonItems (items : List Json) : nodesItems (ofJsonItems items) = JsonWeight.nodes.totalItems items ∧
    textBytesItems (ofJsonItems items) = JsonWeight.stringBytes.totalItems items := by
  match items with
  | [] => exact ⟨rfl, rfl⟩
  | x :: items =>
    obtain ⟨hnode, hbyte⟩ := weight_ofJson x
    obtain ⟨hnodes, hbytes⟩ := weight_ofJsonItems items
    exact ⟨congrArg₂ (· + ·) hnode hnodes, congrArg₂ (· + ·) hbyte hbytes⟩

theorem weight_ofJsonFields (fields : List (PyText × Json)) :
    nodesFields (ofJsonFields fields) = JsonWeight.nodes.totalFields fields ∧
      textBytesFields (ofJsonFields fields) = JsonWeight.stringBytes.totalFields fields := by
  match fields with
  | [] => exact ⟨rfl, rfl⟩
  | (k, v) :: fields =>
    obtain ⟨hnode, hbyte⟩ := weight_ofJson v
    obtain ⟨hnodes, hbytes⟩ := weight_ofJsonFields fields
    refine ⟨?_, congrArg (k.bytes + ·) (congrArg₂ (· + ·) hbyte hbytes)⟩
    exact (congrArg₂ (· + ·) hnode hnodes).trans (Nat.zero_add _).symm
end

open PyValue Json in
mutual
/-- It is strict JSON when its texts are encodable and its numbers are finite. -/
theorem isJson_ofJson (j : Json) :
    (ofJson j).Everywhere IsJson ↔ Leaves IsEncodable j ∧ Leaves IsFinite j := by
  match j with
  | .null | .bool _ | .int _ => exact ⟨fun _ => ⟨trivial, trivial⟩, fun _ => trivial⟩
  | .float x => exact ⟨fun h => ⟨trivial, h⟩, And.right⟩
  | .str s => exact ⟨fun h => ⟨h, trivial⟩, And.left⟩
  | .arr items =>
    refine Iff.trans ?_ (isJson_ofJsonItems items)
    exact ⟨And.right, fun h => ⟨trivial, h⟩⟩
  | .obj fields => exact isJson_ofJsonFields fields

theorem isJson_ofJsonItems (items : List Json) :
    EverywhereItems IsJson (ofJsonItems items) ↔ LeavesItems IsEncodable items ∧ LeavesItems IsFinite items := by
  match items with
  | [] => exact ⟨fun _ => ⟨trivial, trivial⟩, fun _ => trivial⟩
  | x :: items =>
    exact (and_congr (isJson_ofJson x) (isJson_ofJsonItems items)).trans and_and_and_comm

theorem isJson_ofJsonFields (fields : List (PyText × Json)) :
    (∀ key ∈ (ofJsonFields fields).map Prod.fst, IsJsonKey key) ∧ EverywhereFields IsJson (ofJsonFields fields) ↔
      LeavesFields IsEncodable fields ∧ LeavesFields IsFinite fields := by
  match fields with
  | [] => exact ⟨fun _ => ⟨trivial, trivial⟩, fun _ => ⟨fun _ h => (List.not_mem_nil h).elim, trivial⟩⟩
  | (k, v) :: fields =>
    rw [ofJsonFields, List.map_cons, List.forall_mem_cons]
    constructor
    · rintro ⟨⟨hk, hkeys⟩, hv, hfields⟩
      obtain ⟨hencodable, hfinite⟩ := (isJson_ofJson v).mp hv
      obtain ⟨hencodables, hfinites⟩ := (isJson_ofJsonFields fields).mp ⟨hkeys, hfields⟩
      exact ⟨⟨hk, hencodable, hencodables⟩, trivial, hfinite, hfinites⟩
    · rintro ⟨⟨hk, hencodable, hencodables⟩, -, hfinite, hfinites⟩
      obtain ⟨hkeys, hfields⟩ := (isJson_ofJsonFields fields).mpr ⟨hencodables, hfinites⟩
      exact ⟨⟨hk, hkeys⟩, (isJson_ofJson v).mpr ⟨hencodable, hfinite⟩, hfields⟩
end

/-- **JSON is its own copy**, and spends what it weighs. -/
theorem strictJson_ofJson {j j' : Json} {path : String} {depth : ℕ} {b b' : FingerprintBudget} (hu : j.UniqueKeys)
    (hb : b.Allows depth 0 0) : strictJson path depth (.ofJson j) b = .ok (j', b') ↔
      (j.Leaves Json.IsEncodable ∧ j.Leaves Json.IsFinite) ∧
        b.Allows (depth + (PyValue.ofJson j).depth) (JsonWeight.nodes.total j) (JsonWeight.stringBytes.total j) ∧
        j' = j ∧ b' = b.spend (JsonWeight.nodes.total j) (JsonWeight.stringBytes.total j) := by
  rw [strictJson_eq_ok _ hb, isJson_ofJson, plain_ofJson j hu, (weight_ofJson j).1, (weight_ofJson j).2]

/-- **Which requests have an identity**, by the JSON they are. -/
theorem canonicalIdentity_iff {r : ExecutionRequest} {j : Json} (hu : j.UniqueKeys)
    (hj : .ofFields [("operation_id", .text r.operationId), ("action", .text r.action),
      ("parameters", .dict r.parameters)] = PyValue.ofJson j) :
    (∃ c, r.canonicalIdentity = .ok c) ↔
      j.Leaves Json.IsEncodable ∧ j.Leaves Json.IsShort ∧ j.Leaves Json.IsFinite ∧
        (PyValue.ofJson j).depth ≤ maxNesting ∧ JsonWeight.nodes.total j ≤ maxNodes ∧
        JsonWeight.stringBytes.total j ≤ maxStringBytes ∧ JsonWeight.size.total j ≤ maxCanonicalBytes := by
  have hb : (⟨0, 0⟩ : FingerprintBudget).Allows 0 0 0 := ⟨by decide, by decide, by decide⟩
  rw [ExecutionRequest.canonicalIdentity, hj]
  constructor
  · rintro ⟨c, h⟩
    obtain ⟨⟨j', b'⟩, hstrict, hwritten⟩ := except_bind_eq_ok.mp h
    obtain ⟨⟨-, hfinite⟩, ⟨hdepth, hnodes, hbytes⟩, rfl, -⟩ := (strictJson_ofJson hu hb).mp hstrict
    dsimp only at hwritten
    split at hwritten
    · cases hwritten
    · rename_i canonical hcanonical
      split_ifs at hwritten with hsize
      obtain ⟨hencodable, hshort, hle⟩ := Json.canonical_le_iff.mp ⟨canonical, hcanonical, Nat.le_of_not_lt hsize⟩
      rw [Nat.zero_add] at hdepth hnodes hbytes
      exact ⟨hencodable, hshort, hfinite, hdepth, hnodes, hbytes, hle⟩
  · rintro ⟨hencodable, hshort, hfinite, hdepth, hnodes, hbytes, hle⟩
    have hallows : (⟨0, 0⟩ : FingerprintBudget).Allows (0 + (PyValue.ofJson j).depth) (JsonWeight.nodes.total j)
        (JsonWeight.stringBytes.total j) := by
      refine ⟨?_, ?_, ?_⟩
      all_goals rwa [Nat.zero_add]
    have hstrict := (@strictJson_ofJson _ _ "request" _ _ _ hu hb).mpr ⟨⟨hencodable, hfinite⟩, hallows, rfl, rfl⟩
    obtain ⟨c, hc, hsize⟩ := Json.canonical_le_iff.mpr ⟨hencodable, hshort, hle⟩
    refine ⟨c, except_bind_eq_ok.mpr ⟨_, hstrict, ?_⟩⟩
    simp only [hc]
    exact if_neg (Nat.not_lt_of_le hsize)

end Rpr
