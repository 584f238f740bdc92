import PathwayRuntime.Python.RoundTrip

/-!
# The size of a JSON value

* `JsonWeight`: what every value and every key counts; `total`: the sum over a value. `nodes`,
  `stringBytes` and `size` are such weights.
* `Json.Leaves`: a property of the scalars and the keys of a value.
* **`canonical_le_iff`**, **`dumps_le_iff`**: when the canonical form, and the text of `json.dumps`, are
  written and how long they are.
-/

set_option autoImplicit false

namespace Rpr

namespace PyText

/-- `len(s.encode("utf-8"))`, of a text that UTF-8 can encode. -/
def bytes : PyText → ℕ
  | utf8 s => s.utf8ByteSize
  | lone _ _ => 0

/-- UTF-8 can encode the text. -/
def IsUtf8 : PyText → Prop
  | utf8 _ => True
  | lone _ _ => False

instance (s : PyText) : Decidable s.IsUtf8 :=
  match s with
  | utf8 _ => .isTrue trivial
  | lone _ _ => .isFalse id

end PyText

/-! ## Weights -/

/-- What a value counts by itself, and what a key counts. -/
structure JsonWeight where
  own : Json → ℕ
  key : PyText → ℕ

namespace JsonWeight

mutual
/-- What a value counts with everything in it. -/
def total (w : JsonWeight) : Json → ℕ
  | .arr items => w.own (.arr items) + w.totalItems items
  | .obj fields => w.own (.obj fields) + w.totalFields fields
  | j => w.own j

def totalItems (w : JsonWeight) : List Json → ℕ
  | [] => 0
  | x :: xs => w.total x + w.totalItems xs

def totalFields (w : JsonWeight) : List (PyText × Json) → ℕ
  | [] => 0
  | (k, v) :: fields => w.key k + (w.total v + w.totalFields fields)
end

/-- The values. -/
def nodes : JsonWeight := ⟨fun _ => 1, fun _ => 0⟩

/-- The bytes of the texts, the keys among them. -/
def stringBytes : JsonWeight where
  own
    | .str s => s.bytes
    | _ => 0
  key := PyText.bytes

/-- The bytes of a string literal. -/
def literalSize (s : PyText) : ℕ := ((Json.quote s).map Json.encodedSize).getD 0

/-- The bytes that are written. -/
def size : JsonWeight where
  own
    | .null => 4
    | .bool b => if b then 4 else 5
    | .int i => Json.encodedSize (toString i).toList
    | .float x => Json.encodedSize x.repr
    | .str s => literalSize s
    | .arr items => items.length - 1 + 2
    | .obj fields => fields.length - 1 + 2
  key s := literalSize s + 1

@[simp] theorem nodes_own (j : Json) : nodes.own j = 1 := rfl
@[simp] theorem nodes_key (s : PyText) : nodes.key s = 0 := rfl
@[simp] theorem stringBytes_str (s : PyText) : stringBytes.own (.str s) = s.bytes := rfl
@[simp] theorem stringBytes_obj (fields : List (PyText × Json)) : stringBytes.own (.obj fields) = 0 := rfl
@[simp] theorem stringBytes_key (s : PyText) : stringBytes.key s = s.bytes := rfl
@[simp] theorem size_int (i : ℤ) : size.own (.int i) = Json.encodedSize (toString i).toList := rfl
@[simp] theorem size_str (s : PyText) : size.own (.str s) = literalSize s := rfl
@[simp] theorem size_obj (fields : List (PyText × Json)) : size.own (.obj fields) = fields.length - 1 + 2 := rfl
@[simp] theorem size_key (s : PyText) : size.key s = literalSize s + 1 := rfl

end JsonWeight

namespace Json

mutual
/-- The scalars of a value satisfy `p`, its keys among them. -/
def Leaves (p : Json → Prop) : Json → Prop
  | .arr items => LeavesItems p items
  | .obj fields => LeavesFields p fields
  | j => p j

def LeavesItems (p : Json → Prop) : List Json → Prop
  | [] => True
  | x :: xs => Leaves p x ∧ LeavesItems p xs

def LeavesFields (p : Json → Prop) : List (PyText × Json) → Prop
  | [] => True
  | (k, v) :: fields => p (.str k) ∧ Leaves p v ∧ LeavesFields p fields
end

theorem leavesItems_iff {P : Json → Prop} {items : List Json} : LeavesItems P items ↔ ∀ j ∈ items, j.Leaves P := by
  induction items with
  | nil => exact ⟨fun _ _ h => (List.not_mem_nil h).elim, fun _ => trivial⟩
  | cons j items ih => rw [LeavesItems, ih, List.forall_mem_cons]

theorem leavesFields_iff {P : Json → Prop} {fields : List (PyText × Json)} :
    LeavesFields P fields ↔ ∀ f ∈ fields, P (.str f.1) ∧ f.2.Leaves P := by
  induction fields with
  | nil => exact ⟨fun _ _ h => (List.not_mem_nil h).elim, fun _ => trivial⟩
  | cons f fields ih => rw [LeavesFields, ih, List.forall_mem_cons, and_assoc]

mutual
theorem leaves_imp {p q : Json → Prop} (hpq : ∀ j, p j → q j) (j : Json) (h : j.Leaves p) : j.Leaves q := by
  match j with
  | .null | .bool _ | .int _ | .float _ | .str _ => exact hpq _ h
  | .arr items => exact leavesItems_imp hpq items h
  | .obj fields => exact leavesFields_imp hpq fields h

theorem leavesItems_imp {p q : Json → Prop} (hpq : ∀ j, p j → q j) (items : List Json) (h : LeavesItems p items) :
    LeavesItems q items := by
  match items with
  | [] => trivial
  | x :: items => exact ⟨leaves_imp hpq x h.1, leavesItems_imp hpq items h.2⟩

theorem leavesFields_imp {p q : Json → Prop} (hpq : ∀ j, p j → q j) (fields : List (PyText × Json))
    (h : LeavesFields p fields) : LeavesFields q fields := by
  match fields with
  | [] => trivial
  | (k, v) :: fields => exact ⟨hpq _ h.1, leaves_imp hpq v h.2.1, leavesFields_imp hpq fields h.2.2⟩
end

mutual
theorem leaves_of_forall {p : Json → Prop} (h : ∀ j, p j) (j : Json) : j.Leaves p := by
  match j with
  | .null | .bool _ | .int _ | .float _ | .str _ => exact h _
  | .arr items => exact leavesItems_of_forall h items
  | .obj fields => exact leavesFields_of_forall h fields

theorem leavesItems_of_forall {p : Json → Prop} (h : ∀ j, p j) (items : List Json) : LeavesItems p items := by
  match items with
  | [] => trivial
  | x :: items => exact ⟨leaves_of_forall h x, leavesItems_of_forall h items⟩

theorem leavesFields_of_forall {p : Json → Prop} (h : ∀ j, p j) (fields : List (PyText × Json)) :
    LeavesFields p fields := by
  match fields with
  | [] => trivial
  | (k, v) :: fields => exact ⟨h _, leaves_of_forall h v, leavesFields_of_forall h fields⟩
end

/-- A text is encodable. -/
def IsEncodable : Json → Prop
  | .str s => s.IsUtf8
  | _ => True

/-- An integer has a decimal text. -/
def IsShort : Json → Prop
  | .int i => i.natAbs < intLimit
  | _ => True

/-- A float is finite. -/
def IsFinite : Json → Prop
  | .float x => x.isFinite = true
  | _ => True

/-! ## Sizes of texts -/

@[simp] theorem encodedSize_nil : encodedSize [] = 0 := rfl

@[simp] theorem encodedSize_cons (c : Char) (text : List Char) :
    encodedSize (c :: text) = c.utf8Size + encodedSize text := by
  rw [encodedSize, List.map_cons, List.sum_cons, encodedSize]

@[simp] theorem encodedSize_append (a b : List Char) :
    encodedSize (a ++ b) = encodedSize a + encodedSize b := by
  rw [encodedSize, List.map_append, List.sum_append, encodedSize, encodedSize]

theorem encodedSize_commas (xs : List (List Char)) :
    encodedSize (commas xs) = (xs.map encodedSize).sum + (xs.length - 1) := by
  induction xs with
  | nil => rfl
  | cons x xs ih =>
    cases xs with
    | nil => simp [commas]
    | cons y ys =>
      have hcomma : Char.utf8Size ',' = 1 := by decide
      rw [commas_cons_cons, encodedSize_append, encodedSize_cons, ih, hcomma]
      simp only [List.map_cons, List.sum_cons, List.length_cons]
      omega

theorem encodedSize_quote {s : PyText} {literal : List Char} (h : quote s = some literal) :
    encodedSize literal = JsonWeight.literalSize s := by
  rw [JsonWeight.literalSize, h]
  rfl

theorem encodedSize_bracket {opening closing : Char} (hopening : opening.utf8Size = 1)
    (hclosing : closing.utf8Size = 1) (xs : List (List Char)) :
    encodedSize (bracket opening closing xs) = xs.length - 1 + 2 + (xs.map encodedSize).sum := by
  rw [bracket, List.cons_append, encodedSize_cons, encodedSize_append, encodedSize_cons, encodedSize_nil,
    encodedSize_commas, hopening, hclosing]
  omega

/-- A text that has a literal is encodable. -/
theorem isUtf8_of_quote {s : PyText} {literal : List Char} (h : quote s = some literal) : s.IsUtf8 := by
  cases s with
  | utf8 s => trivial
  | lone codes hcodes => cases h

theorem exists_quote {s : PyText} (h : s.IsUtf8) : ∃ literal, quote s = some literal := by
  cases s with
  | utf8 s => exact ⟨_, rfl⟩
  | lone codes hcodes => exact absurd h id

/-! ## The canonical form -/

/-- A member of an object as it is rendered. -/
def Member.text (m : Member) : List Char := '"' :: m.key.toList.flatMap escape ++ ['"', ':'] ++ m.value

theorem encodedSize_memberText (m : Member) : encodedSize m.text =
    JsonWeight.literalSize (.utf8 m.key) + 1 + encodedSize m.value := by
  have hcolon : Char.utf8Size ':' = 1 := by decide
  rw [Member.text, encodedSize_append, JsonWeight.literalSize, quote, Option.map_some, Option.getD_some]
  simp only [List.cons_append, encodedSize_cons, encodedSize_append, encodedSize_nil, hcolon]
  omega

/-- The order of the members does not show in the size. -/
theorem encodedSize_renderObject (members : List Member) : encodedSize (renderObject members) =
    members.length - 1 + 2 + (members.map fun m => encodedSize m.text).sum := by
  have hperm := List.perm_insertionSort (fun a b : Member => a.le b = true) members
  have hobject : renderObject members =
      bracket '{' '}' ((members.insertionSort fun a b => a.le b = true).map Member.text) := rfl
  rw [hobject, encodedSize_bracket (by decide) (by decide), List.map_map, List.length_map, hperm.length_eq,
    (hperm.map _).sum_eq]
  rfl

attribute [local irreducible] intLimit in
mutual
/-- What was rendered is encodable, has short integers and is as long as it should be. -/
theorem render_eq_some (j : Json) {c : List Char} (h : render j = some c) :
    Leaves IsEncodable j ∧ Leaves IsShort j ∧ encodedSize c = JsonWeight.size.total j := by
  match j with
  | .null =>
    cases h
    exact ⟨trivial, trivial, by decide⟩
  | .bool b =>
    cases h
    refine ⟨trivial, trivial, ?_⟩
    cases b <;> decide
  | .int i =>
    rw [render] at h
    split_ifs at h with hi
    obtain rfl := Option.some.inj h
    exact ⟨trivial, hi, rfl⟩
  | .float x =>
    obtain rfl := Option.some.inj h
    exact ⟨trivial, trivial, rfl⟩
  | .str s => exact ⟨isUtf8_of_quote h, trivial, encodedSize_quote h⟩
  | .arr items =>
    rw [render] at h
    obtain ⟨xs, hxs, rfl⟩ := Option.map_eq_some_iff.mp h
    obtain ⟨hencodable, hshort, hlength, hsum⟩ := renderItems_eq_some items hxs
    have hbracket : '[' :: commas xs ++ [']'] = bracket '[' ']' xs := rfl
    refine ⟨hencodable, hshort, ?_⟩
    rw [hbracket, encodedSize_bracket (by decide) (by decide), hlength, hsum]
    rfl
  | .obj fields =>
    rw [render] at h
    obtain ⟨members, hmembers, rfl⟩ := Option.map_eq_some_iff.mp h
    obtain ⟨hencodable, hshort, hlength, hsum⟩ := renderFields_eq_some fields hmembers
    exact ⟨hencodable, hshort, by rw [encodedSize_renderObject, hlength, hsum]; rfl⟩

theorem renderItems_eq_some (items : List Json) {xs : List (List Char)} (h : renderItems items = some xs) :
    LeavesItems IsEncodable items ∧ LeavesItems IsShort items ∧ xs.length = items.length ∧
      (xs.map encodedSize).sum = JsonWeight.size.totalItems items := by
  match items with
  | [] =>
    cases h
    exact ⟨trivial, trivial, rfl, rfl⟩
  | x :: items =>
    rw [renderItems] at h
    obtain ⟨c, hc, h⟩ := Option.bind_eq_some_iff.mp h
    obtain ⟨rest, hrest, rfl⟩ := Option.map_eq_some_iff.mp h
    obtain ⟨hencodable, hshort, hsize⟩ := render_eq_some x hc
    obtain ⟨hencodables, hshorts, hlength, hsum⟩ := renderItems_eq_some items hrest
    refine ⟨⟨hencodable, hencodables⟩, ⟨hshort, hshorts⟩, by simp [hlength], ?_⟩
    rw [List.map_cons, List.sum_cons, hsize, hsum, JsonWeight.totalItems]

theorem renderFields_eq_some (fields : List (PyText × Json)) {members : List Member}
    (h : renderFields fields = some members) :
    LeavesFields IsEncodable fields ∧ LeavesFields IsShort fields ∧ members.length = fields.length ∧
      (members.map fun m => encodedSize m.text).sum = JsonWeight.size.totalFields fields := by
  match fields with
  | [] =>
    cases h
    exact ⟨trivial, trivial, rfl, rfl⟩
  | (.lone _ _, _) :: _ => cases h
  | (.utf8 k, v) :: fields =>
    rw [renderFields] at h
    obtain ⟨c, hc, h⟩ := Option.bind_eq_some_iff.mp h
    obtain ⟨rest, hrest, rfl⟩ := Option.map_eq_some_iff.mp h
    obtain ⟨hencodable, hshort, hsize⟩ := render_eq_some v hc
    obtain ⟨hencodables, hshorts, hlength, hsum⟩ := renderFields_eq_some fields hrest
    refine ⟨⟨trivial, hencodable, hencodables⟩, ⟨trivial, hshort, hshorts⟩, by simp [hlength], ?_⟩
    rw [List.map_cons, List.sum_cons, encodedSize_memberText, hsize, hsum, JsonWeight.totalFields,
      Nat.add_assoc]
    rfl
end

attribute [local irreducible] intLimit in
mutual
/-- An encodable value with short integers is rendered. -/
theorem exists_render (j : Json) (hencodable : Leaves IsEncodable j) (hshort : Leaves IsShort j) :
    ∃ c, render j = some c := by
  match j with
  | .null | .bool _ | .float _ => exact ⟨_, rfl⟩
  | .int i =>
    have hi : i.natAbs < intLimit := hshort
    rw [render, if_pos hi]
    exact ⟨_, rfl⟩
  | .str s => exact exists_quote hencodable
  | .arr items =>
    obtain ⟨xs, hxs⟩ := exists_renderItems items hencodable hshort
    rw [render, hxs]
    exact ⟨_, rfl⟩
  | .obj fields =>
    obtain ⟨members, hmembers⟩ := exists_renderFields fields hencodable hshort
    rw [render, hmembers]
    exact ⟨_, rfl⟩

theorem exists_renderItems (items : List Json) (hencodable : LeavesItems IsEncodable items)
    (hshort : LeavesItems IsShort items) : ∃ xs, renderItems items = some xs := by
  match items with
  | [] => exact ⟨_, rfl⟩
  | x :: items =>
    obtain ⟨c, hc⟩ := exists_render x hencodable.1 hshort.1
    obtain ⟨xs, hxs⟩ := exists_renderItems items hencodable.2 hshort.2
    rw [renderItems, hc, hxs]
    exact ⟨_, rfl⟩

theorem exists_renderFields (fields : List (PyText × Json)) (hencodable : LeavesFields IsEncodable fields)
    (hshort : LeavesFields IsShort fields) : ∃ members, renderFields fields = some members := by
  match fields with
  | [] => exact ⟨_, rfl⟩
  | (.lone _ _, _) :: _ => exact absurd hencodable.1 id
  | (.utf8 k, v) :: fields =>
    obtain ⟨c, hc⟩ := exists_render v hencodable.2.1 hshort.2.1
    obtain ⟨members, hmembers⟩ := exists_renderFields fields hencodable.2.2 hshort.2.2
    rw [renderFields, hc, hmembers]
    exact ⟨_, rfl⟩
end

/-- **The canonical form within a limit.** -/
theorem canonical_le_iff {j : Json} {limit : ℕ} :
    (∃ c, canonical j = some c ∧ encodedSize c ≤ limit) ↔
      Leaves IsEncodable j ∧ Leaves IsShort j ∧ JsonWeight.size.total j ≤ limit := by
  constructor
  · rintro ⟨c, hc, hle⟩
    obtain ⟨hencodable, hshort, hsize⟩ := render_eq_some j hc
    exact ⟨hencodable, hshort, hsize ▸ hle⟩
  · rintro ⟨hencodable, hshort, hle⟩
    obtain ⟨c, hc⟩ := exists_render j hencodable hshort
    exact ⟨c, hc, (render_eq_some j hc).2.2 ▸ hle⟩

/-! ## What `json.dumps` writes -/

variable {py : JsonPlatform}

attribute [local irreducible] intLimit in
mutual
/-- What was written is encodable, has short integers and finite floats, and is as long as it should be. -/
theorem writeValue_eq_ok (j : Json) {frames : ℕ} {text : List Char}
    (h : writeValue py frames (.ofJson j) = .ok (some text)) :
    Leaves IsEncodable j ∧ Leaves IsShort j ∧ Leaves IsFinite j ∧ (PyValue.ofJson j).depth ≤ frames ∧
      encodedSize text = JsonWeight.size.total j := by
  match j with
  | .null =>
    cases h
    exact ⟨trivial, trivial, trivial, Nat.zero_le _, by decide⟩
  | .bool b =>
    cases h
    refine ⟨trivial, trivial, trivial, Nat.zero_le _, ?_⟩
    cases b <;> decide
  | .int i =>
    rw [PyValue.ofJson, writeValue] at h
    split_ifs at h with hi
    obtain rfl := Option.some.inj (Except.ok.inj h)
    exact ⟨trivial, hi, trivial, Nat.zero_le _, rfl⟩
  | .float x =>
    rw [PyValue.ofJson, writeValue] at h
    split_ifs at h with hx
    obtain rfl := Option.some.inj (Except.ok.inj h)
    exact ⟨trivial, trivial, hx, Nat.zero_le _, rfl⟩
  | .str s =>
    have hquote : quote s = some text := Except.ok.inj h
    exact ⟨isUtf8_of_quote hquote, trivial, trivial, Nat.zero_le _, encodedSize_quote hquote⟩
  | .arr items =>
    obtain ⟨n, xs, rfl, hxs, rfl⟩ := writeItems_of_array h
    obtain ⟨hencodable, hshort, hfinite, hdepth, hlength, hsum⟩ := writeItems_eq_ok items hxs
    refine ⟨hencodable, hshort, hfinite, Nat.succ_le_succ hdepth, ?_⟩
    rw [encodedSize_bracket (by decide) (by decide), hlength, hsum]
    rfl
  | .obj fields =>
    obtain ⟨n, xs, rfl, hxs, rfl⟩ := writeMembers_of_object h
    obtain ⟨hencodable, hshort, hfinite, hdepth, hlength, hsum⟩ := writeMembers_eq_ok fields hxs
    refine ⟨hencodable, hshort, hfinite, Nat.succ_le_succ hdepth, ?_⟩
    rw [encodedSize_bracket (by decide) (by decide), hlength, hsum]
    rfl

theorem writeItems_eq_ok (items : List Json) {frames : ℕ} {xs : List (List Char)}
    (h : writeItems py frames (PyValue.ofJsonItems items) = .ok (some xs)) :
    LeavesItems IsEncodable items ∧ LeavesItems IsShort items ∧ LeavesItems IsFinite items ∧
      PyValue.depthItems (PyValue.ofJsonItems items) ≤ frames ∧ xs.length = items.length ∧
      (xs.map encodedSize).sum = JsonWeight.size.totalItems items := by
  match items with
  | [] =>
    obtain rfl := Option.some.inj (Except.ok.inj h)
    exact ⟨trivial, trivial, trivial, Nat.zero_le _, rfl, rfl⟩
  | x :: items =>
    obtain ⟨text, rest, rfl, htext, hrest⟩ := writeItems_cons h
    obtain ⟨hencodable, hshort, hfinite, hdepth, hsize⟩ := writeValue_eq_ok x htext
    obtain ⟨hencodables, hshorts, hfinites, hdepths, hlength, hsum⟩ := writeItems_eq_ok items hrest
    refine ⟨⟨hencodable, hencodables⟩, ⟨hshort, hshorts⟩, ⟨hfinite, hfinites⟩,
      Nat.max_le.mpr ⟨hdepth, hdepths⟩, by simp [hlength], ?_⟩
    rw [List.map_cons, List.sum_cons, hsize, hsum, JsonWeight.totalItems]

theorem writeMembers_eq_ok (fields : List (PyText × Json)) {frames : ℕ} {xs : List (List Char)}
    (h : writeMembers py frames (PyValue.ofJsonFields fields) = .ok (some xs)) :
    LeavesFields IsEncodable fields ∧ LeavesFields IsShort fields ∧ LeavesFields IsFinite fields ∧
      PyValue.depthFields (PyValue.ofJsonFields fields) ≤ frames ∧ xs.length = fields.length ∧
      (xs.map encodedSize).sum = JsonWeight.size.totalFields fields := by
  match fields with
  | [] =>
    obtain rfl := Option.some.inj (Except.ok.inj h)
    exact ⟨trivial, trivial, trivial, Nat.zero_le _, rfl, rfl⟩
  | (k, v) :: fields =>
    obtain ⟨literal, text, rest, rfl, hliteral, htext, hrest⟩ := writeMembers_cons h
    have hquote : quote k = some literal := Except.ok.inj hliteral
    obtain ⟨hencodable, hshort, hfinite, hdepth, hsize⟩ := writeValue_eq_ok v htext
    obtain ⟨hencodables, hshorts, hfinites, hdepths, hlength, hsum⟩ := writeMembers_eq_ok fields hrest
    refine ⟨⟨isUtf8_of_quote hquote, hencodable, hencodables⟩, ⟨trivial, hshort, hshorts⟩,
      ⟨trivial, hfinite, hfinites⟩, Nat.max_le.mpr ⟨hdepth, hdepths⟩, by simp [hlength], ?_⟩
    have hcolon : Char.utf8Size ':' = 1 := by decide
    rw [List.map_cons, List.sum_cons, memberText, encodedSize_append, encodedSize_cons, encodedSize_quote hquote,
      hcolon, hsize, hsum, JsonWeight.totalFields, ← Nat.add_assoc, Nat.add_assoc]
    rfl
end

attribute [local irreducible] intLimit in
mutual
/-- An encodable value with short integers and finite floats is written when containers may be nested as
deep. -/
theorem exists_writeValue (j : Json) {frames : ℕ} (hencodable : Leaves IsEncodable j) (hshort : Leaves IsShort j)
    (hfinite : Leaves IsFinite j) (hdepth : (PyValue.ofJson j).depth ≤ frames) :
    ∃ text, writeValue py frames (.ofJson j) = .ok (some text) := by
  match j with
  | .null | .bool _ => exact ⟨_, rfl⟩
  | .int i =>
    have hi : i.natAbs < intLimit := hshort
    rw [PyValue.ofJson, writeValue, if_pos hi]
    exact ⟨_, rfl⟩
  | .float x =>
    have hx : x.isFinite = true := hfinite
    rw [PyValue.ofJson, writeValue, if_pos hx]
    exact ⟨_, rfl⟩
  | .str s =>
    obtain ⟨literal, hliteral⟩ := exists_quote hencodable
    exact ⟨literal, congrArg Except.ok hliteral⟩
  | .arr items =>
    obtain ⟨n, rfl⟩ := Nat.exists_eq_add_one_of_ne_zero (Nat.ne_of_gt (Nat.lt_of_lt_of_le (Nat.succ_pos _) hdepth))
    obtain ⟨xs, hxs⟩ := exists_writeItems items hencodable hshort hfinite (Nat.le_of_succ_le_succ hdepth)
    rw [PyValue.ofJson, writeValue, hxs]
    exact ⟨_, rfl⟩
  | .obj fields =>
    obtain ⟨n, rfl⟩ := Nat.exists_eq_add_one_of_ne_zero (Nat.ne_of_gt (Nat.lt_of_lt_of_le (Nat.succ_pos _) hdepth))
    obtain ⟨xs, hxs⟩ := exists_writeMembers fields hencodable hshort hfinite (Nat.le_of_succ_le_succ hdepth)
    rw [PyValue.ofJson, writeValue, hxs]
    exact ⟨_, rfl⟩

theorem exists_writeItems (items : List Json) {frames : ℕ} (hencodable : LeavesItems IsEncodable items)
    (hshort : LeavesItems IsShort items) (hfinite : LeavesItems IsFinite items)
    (hdepth : PyValue.depthItems (PyValue.ofJsonItems items) ≤ frames) :
    ∃ xs, writeItems py frames (PyValue.ofJsonItems items) = .ok (some xs) := by
  match items with
  | [] => exact ⟨_, rfl⟩
  | x :: items =>
    obtain ⟨hx, hrest⟩ := Nat.max_le.mp hdepth
    obtain ⟨text, htext⟩ := exists_writeValue x hencodable.1 hshort.1 hfinite.1 hx
    obtain ⟨xs, hxs⟩ := exists_writeItems items hencodable.2 hshort.2 hfinite.2 hrest
    rw [PyValue.ofJsonItems, writeItems, htext, hxs]
    exact ⟨_, rfl⟩

theorem exists_writeMembers (fields : List (PyText × Json)) {frames : ℕ}
    (hencodable : LeavesFields IsEncodable fields) (hshort : LeavesFields IsShort fields)
    (hfinite : LeavesFields IsFinite fields)
    (hdepth : PyValue.depthFields (PyValue.ofJsonFields fields) ≤ frames) :
    ∃ xs, writeMembers py frames (PyValue.ofJsonFields fields) = .ok (some xs) := by
  match fields with
  | [] => exact ⟨_, rfl⟩
  | (k, v) :: fields =>
    obtain ⟨hv, hrest⟩ := Nat.max_le.mp hdepth
    obtain ⟨literal, hliteral⟩ := exists_quote hencodable.1
    obtain ⟨text, htext⟩ := exists_writeValue v hencodable.2.1 hshort.2.1 hfinite.2.1 hv
    obtain ⟨xs, hxs⟩ := exists_writeMembers fields hencodable.2.2 hshort.2.2 hfinite.2.2 hrest
    rw [PyValue.ofJsonFields, writeMembers, writeKey, hliteral, htext, hxs]
    exact ⟨_, rfl⟩
end

/-- **The text of `json.dumps` within a limit.** -/
theorem dumps_le_iff {fields : List (PyText × Json)} {limit : ℕ} :
    (∃ text, dumps py (PyValue.ofJsonFields fields) = .ok (some text) ∧ encodedSize text ≤ limit) ↔
      Leaves IsEncodable (.obj fields) ∧ Leaves IsShort (.obj fields) ∧ Leaves IsFinite (.obj fields) ∧
        (PyValue.ofJson (.obj fields)).depth ≤ py.encoderFrames ∧ JsonWeight.size.total (.obj fields) ≤ limit := by
  constructor
  · rintro ⟨text, htext, hle⟩
    obtain ⟨hencodable, hshort, hfinite, hdepth, hsize⟩ := writeValue_eq_ok (.obj fields) htext
    exact ⟨hencodable, hshort, hfinite, hdepth, hsize ▸ hle⟩
  · rintro ⟨hencodable, hshort, hfinite, hdepth, hle⟩
    obtain ⟨text, htext⟩ : ∃ text, writeValue py py.encoderFrames (.ofJson (.obj fields)) = .ok (some text) :=
      exists_writeValue (.obj fields) hencodable hshort hfinite hdepth
    exact ⟨text, htext, (writeValue_eq_ok (.obj fields) htext).2.2.2.2 ▸ hle⟩

end Json

end Rpr
