import PathwayRuntime.Python.Measure
import PathwayRuntime.Python.Sorted

/-!
# The canonical text of a value determines it

* `forall₂_insertionSort`: sorting keeps related lists related.
* **`readAs_render`**: the canonical text is read as the value with its members sorted.
* **`canonical_inj`**: values with one canonical text differ in the order of their members only.
-/

set_option autoImplicit false

namespace Rpr

/-! ## Sorting related lists -/

section Sorting

variable {α β : Type} {R : α → β → Prop} {r : α → α → Prop} {s : β → β → Prop} [DecidableRel r]
  [DecidableRel s] (hrs : ∀ a b a' b', R a b → R a' b' → (r a a' ↔ s b b'))

include hrs

theorem forall₂_orderedInsert {a : α} {b : β} (hab : R a b) {xs : List α} {ys : List β}
    (h : List.Forall₂ R xs ys) : List.Forall₂ R (xs.orderedInsert r a) (ys.orderedInsert s b) := by
  induction h with
  | nil => exact .cons hab .nil
  | @cons a' b' xs ys hab' h ih =>
    rw [List.orderedInsert, List.orderedInsert]
    by_cases hle : r a a'
    · rw [if_pos hle, if_pos ((hrs a b a' b' hab hab').mp hle)]
      exact .cons hab (.cons hab' h)
    · rw [if_neg hle, if_neg (mt (hrs a b a' b' hab hab').mpr hle)]
      exact .cons hab' ih

theorem forall₂_insertionSort {xs : List α} {ys : List β} (h : List.Forall₂ R xs ys) :
    List.Forall₂ R (xs.insertionSort r) (ys.insertionSort s) := by
  induction h with
  | nil => exact .nil
  | cons hab h ih => exact forall₂_orderedInsert hrs hab ih

end Sorting

/-! ## Decoded values -/

mutual
theorem ofJson_inj (j : Json) {j' : Json} (h : PyValue.ofJson j = .ofJson j') : j = j' := by
  match j, j' with
  | .null, .null => rfl
  | .bool _, .bool _ | .int _, .int _ | .float _, .float _ | .str _, .str _ => cases h; rfl
  | .arr items, .arr items' => rw [ofJsonItems_inj items (PyValue.list.inj h)]
  | .obj fields, .obj fields' => rw [ofJsonFields_inj fields (PyValue.dict.inj h)]

theorem ofJsonItems_inj (items : List Json) {items' : List Json}
    (h : PyValue.ofJsonItems items = PyValue.ofJsonItems items') : items = items' := by
  match items, items' with
  | [], [] => rfl
  | x :: items, x' :: items' =>
    obtain ⟨hx, hitems⟩ := List.cons.inj h
    rw [ofJson_inj x hx, ofJsonItems_inj items hitems]

theorem ofJsonFields_inj (fields : List (PyText × Json)) {fields' : List (PyText × Json)}
    (h : PyValue.ofJsonFields fields = PyValue.ofJsonFields fields') : fields = fields' := by
  match fields, fields' with
  | [], [] => rfl
  | (k, v) :: fields, (k', v') :: fields' =>
    obtain ⟨hf, hfields⟩ := List.cons.inj h
    obtain ⟨hk, hv⟩ := Prod.mk.inj hf
    rw [PyKey.str.inj hk, ofJson_inj v hv, ofJsonFields_inj fields hfields]
end

theorem ofJsonFields_eq_map (fields : List (PyText × Json)) :
    PyValue.ofJsonFields fields = fields.map fun f => (PyKey.str f.1, PyValue.ofJson f.2) := by
  induction fields with
  | nil => rfl
  | cons f fields ih => rw [PyValue.ofJsonFields, List.map_cons, ih]

namespace Json

/-- A float is finite and the one its digits are read as. -/
def IsRead (py : JsonPlatform) : Json → Prop
  | .float (.finite x) => py.readFloat x = .finite x
  | .float _ => False
  | _ => True

/-- A float is read back from its text. -/
def ReadsFloats (py : JsonPlatform) (hooks : JsonHooks) : Json → Prop
  | .float x => ∀ k, ReadAs py hooks k x.repr (.float x)
  | _ => True

theorem IsRead.readsFloats {py : JsonPlatform} {hooks : JsonHooks} : ∀ j, IsRead py j → ReadsFloats py hooks j
  | .float (.finite _), h => fun _ => readAs_float h
  | .float (.inf _), h => h.elim
  | .float .nan, h => h.elim
  | .null, _ | .bool _, _ | .int _, _ | .str _, _ | .arr _, _ | .obj _, _ => trivial

/-! ## Reading the canonical text -/

section Read

variable {py : JsonPlatform} {hooks : JsonHooks} {k : ℕ}

/-- A rendered member is read as this field. -/
def MemberReadAs (py : JsonPlatform) (hooks : JsonHooks) (k : ℕ) (m : Member) (f : PyText × Json) : Prop :=
  f.1 = .utf8 m.key ∧ ReadAs py hooks k m.value (PyValue.ofJson f.2)

theorem MemberReadAs.text {m : Member} {f : PyText × Json} (h : MemberReadAs py hooks k m f) :
    ReadMember py hooks k m.text (PyKey.str f.1, PyValue.ofJson f.2) := by
  refine ⟨f.1, '"' :: m.key.toList.flatMap escape ++ ['"'], m.value, rfl, by rw [h.1]; rfl, ?_, .of_begins h.2 h.2.1⟩
  rw [Member.text, memberText]
  simp

/-- The order of the members is the order of the fields. -/
theorem MemberReadAs.le_iff {m m' : Member} {f f' : PyText × Json} (h : MemberReadAs py hooks k m f)
    (h' : MemberReadAs py hooks k m' f') : m.le m' = true ↔ f.1.le f'.1 = true := by
  rw [h.1, h'.1]
  rfl

/-- An object is read with its members sorted. -/
theorem readAs_renderObject (hhooks : hooks.KeepsObjects) {members : List Member}
    {fields : List (PyText × Json)} (hnd : (fields.map Prod.fst).Nodup)
    (h : List.Forall₂ (MemberReadAs py hooks k) members fields) :
    ReadAs py hooks (k + 1) (renderObject members)
      (.dict (PyValue.ofJsonFields (fields.insertionSort fun a b => a.1.le b.1 = true))) := by
  have hsorted := forall₂_insertionSort (r := fun a b : Member => a.le b = true)
    (s := fun a b : PyText × Json => a.1.le b.1 = true) (fun _ _ _ _ => MemberReadAs.le_iff) h
  refine readAs_brace hhooks ?_ ?_
  · rw [keys_ofJsonFields]
    refine List.Nodup.map (fun s t hst => PyKey.str.inj hst) ?_
    exact (((List.perm_insertionSort _ fields).map Prod.fst).nodup_iff).mpr hnd
  · rw [ofJsonFields_eq_map]
    exact List.forall₂_map_left_iff.mpr (List.forall₂_map_right_iff.mpr (hsorted.imp fun _ _ => MemberReadAs.text))

attribute [local irreducible] intLimit in
mutual
/-- **The canonical text is read as the value with its members sorted.** -/
theorem readAs_render (hhooks : hooks.KeepsObjects) (j : Json) {k : ℕ} {c : List Char} (h : render j = some c)
    (hu : j.UniqueKeys) (hread : j.Leaves (ReadsFloats py hooks)) (hdepth : (PyValue.ofJson j).depth ≤ k) :
    ReadAs py hooks k c (PyValue.ofJson j.sortKeys) := by
  match j with
  | .null =>
    obtain rfl := Option.some.inj h
    exact readAs_none
  | .bool b =>
    obtain rfl := Option.some.inj h
    exact readAs_bool b
  | .int i =>
    rw [render] at h
    split_ifs at h with hi
    obtain rfl := Option.some.inj h
    exact readAs_int hi
  | .float x =>
    obtain rfl := Option.some.inj h
    exact hread k
  | .str s => exact readAs_text h
  | .arr items =>
    obtain ⟨k, rfl⟩ := Nat.exists_eq_add_of_le' (Nat.le_trans (Nat.le_add_left 1 _) hdepth)
    rw [render] at h
    obtain ⟨xs, hxs, rfl⟩ := Option.map_eq_some_iff.mp h
    exact readAs_bracket (readAs_renderItems hhooks items hxs hu hread (Nat.le_of_succ_le_succ hdepth))
  | .obj fields =>
    obtain ⟨k, rfl⟩ := Nat.exists_eq_add_of_le' (Nat.le_trans (Nat.le_add_left 1 _) hdepth)
    rw [render] at h
    obtain ⟨members, hmembers, rfl⟩ := Option.map_eq_some_iff.mp h
    refine readAs_renderObject hhooks ?_
      (readAs_renderFields hhooks fields hmembers hu.2 hread (Nat.le_of_succ_le_succ hdepth))
    rw [keys_sortFields]
    exact hu.1

theorem readAs_renderItems (hhooks : hooks.KeepsObjects) (items : List Json) {k : ℕ} {xs : List (List Char)}
    (h : renderItems items = some xs) (hu : UniqueItems items) (hread : LeavesItems (ReadsFloats py hooks) items)
    (hdepth : PyValue.depthItems (PyValue.ofJsonItems items) ≤ k) :
    List.Forall₂ (ReadAs py hooks k) xs (PyValue.ofJsonItems (sortItems items)) := by
  match items with
  | [] =>
    obtain rfl := Option.some.inj h
    exact .nil
  | x :: items =>
    rw [renderItems] at h
    obtain ⟨c, hc, h⟩ := Option.bind_eq_some_iff.mp h
    obtain ⟨rest, hrest, rfl⟩ := Option.map_eq_some_iff.mp h
    exact .cons (readAs_render hhooks x hc hu.1 hread.1 (Nat.le_trans (Nat.le_max_left _ _) hdepth))
      (readAs_renderItems hhooks items hrest hu.2 hread.2 (Nat.le_trans (Nat.le_max_right _ _) hdepth))

theorem readAs_renderFields (hhooks : hooks.KeepsObjects) (fields : List (PyText × Json)) {k : ℕ}
    {members : List Member} (h : renderFields fields = some members) (hu : UniqueFields fields)
    (hread : LeavesFields (ReadsFloats py hooks) fields)
    (hdepth : PyValue.depthFields (PyValue.ofJsonFields fields) ≤ k) :
    List.Forall₂ (MemberReadAs py hooks k) members (sortFields fields) := by
  match fields with
  | [] =>
    obtain rfl := Option.some.inj h
    exact .nil
  | (.lone _ _, _) :: _ => cases h
  | (.utf8 key, v) :: fields =>
    rw [renderFields] at h
    obtain ⟨c, hc, h⟩ := Option.bind_eq_some_iff.mp h
    obtain ⟨rest, hrest, rfl⟩ := Option.map_eq_some_iff.mp h
    exact .cons
      ⟨rfl, readAs_render hhooks v hc hu.1 hread.2.1 (Nat.le_trans (Nat.le_max_left _ _) hdepth)⟩
      (readAs_renderFields hhooks fields hrest hu.2 hread.2.2 (Nat.le_trans (Nat.le_max_right _ _) hdepth))
end

/-- A text that is read is loaded. -/
theorem loads_of_readAs {text : List Char} {j : Json} (h : ReadAs py hooks py.scannerFrames text (PyValue.ofJson j)) :
    loads py hooks text = .ok j := by
  obtain ⟨hbegins, hscan⟩ := h
  obtain ⟨j', hscan, hj⟩ := hscan [] (fun c hc => by cases hc)
  have hbom : text.head? ≠ some '\uFEFF' := by
    obtain ⟨c, tail, rfl, hc⟩ := hbegins
    rintro hc'
    obtain rfl := Option.some.inj hc'
    exact absurd hc (by decide)
  rw [List.append_nil] at hscan
  rw [loads, if_neg hbom, skipSpace_of_begins hbegins, hscan, ofJson_inj j' hj]
  rfl

/-- **The canonical text is loaded** as the value with its members sorted. -/
theorem loads_canonical (hhooks : hooks.KeepsObjects) {j : Json} {c : List Char} (h : canonical j = some c)
    (hu : j.UniqueKeys) (hread : j.Leaves (ReadsFloats py hooks))
    (hdepth : (PyValue.ofJson j).depth ≤ py.scannerFrames) : loads py hooks c = .ok j.sortKeys :=
  loads_of_readAs (readAs_render hhooks j h hu hread hdepth)

end Read

/-! ## Equal texts -/

/-- A platform on which every number is the one its digits are, and so many containers may be nested. -/
def plainPlatform (frames : ℕ) : JsonPlatform where
  encoderFrames := frames
  scannerFrames := frames
  keyText := .ok
  readFloat := .finite
  repr s := s
  decodeError _ := ""
  keyText_error _ _ h := by cases h

/-- The constants `json.loads` reads. -/
def constantOf (text : String) : PyFloat := if text = "NaN" then .nan else .inf (text = "-Infinity")

private def plainHooks : JsonHooks := ⟨fun pairs => .ok (.obj pairs), fun text => .ok (.float (constantOf text))⟩

private theorem plainHooks_keepsObjects : plainHooks.KeepsObjects := fun _ _ => rfl

theorem constantOf_repr {x : PyFloat} (hx : x.isFinite = false) : constantOf (String.ofList x.repr) = x := by
  cases x with
  | finite x => cases hx
  | nan => decide +kernel
  | inf neg => cases neg <;> decide +kernel

private theorem readsFloats_plain : ∀ j, ReadsFloats (plainPlatform 0) plainHooks j
  | .float x => by
    intro k
    cases hx : x.isFinite with
    | false => exact readAs_constant hx (congrArg (fun x => Except.ok (Json.float x)) (constantOf_repr hx))
    | true =>
      cases x with
      | finite x => exact readAs_float rfl
      | inf neg => cases hx
      | nan => cases hx
  | .null | .bool _ | .int _ | .str _ | .arr _ | .obj _ => trivial

/-- The text is read as this value, whatever is allowed to be nested as deeply as it is. -/
def Reads (c : List Char) (j : Json) : Prop :=
  ∃ d, ∀ k, d ≤ k → ReadAs (plainPlatform 0) plainHooks k c (PyValue.ofJson j)

/-- **A text is read as one value.** -/
theorem Reads.unique {c : List Char} {j j' : Json} (h : Reads c j) (h' : Reads c j') : j = j' := by
  obtain ⟨d, h⟩ := h
  obtain ⟨d', h'⟩ := h'
  obtain ⟨i, hi, hj⟩ := (h (max d d') (le_max_left _ _)).2 [] fun c hc => by cases hc
  obtain ⟨i', hi', hj'⟩ := (h' (max d d') (le_max_right _ _)).2 [] fun c hc => by cases hc
  rw [← ofJson_inj i hj, ← ofJson_inj i' hj']
  exact (Prod.mk.inj (Except.ok.inj (hi.symm.trans hi'))).1

theorem reads_canonical {j : Json} {c : List Char} (h : canonical j = some c) (hu : j.UniqueKeys) :
    Reads c j.sortKeys :=
  ⟨_, fun _ hk => readAs_render plainHooks_keepsObjects j h hu (leaves_of_forall readsFloats_plain j) hk⟩

/-- A member is read as this field. -/
def MemberReads (m : Member) (f : PyText × Json) : Prop := f.1 = .utf8 m.key ∧ Reads m.value f.2

/-- Members are read at one depth. -/
theorem exists_memberReadAs {members : List Member} {fields : List (PyText × Json)}
    (h : List.Forall₂ MemberReads members fields) :
    ∃ d, ∀ k, d ≤ k → List.Forall₂ (MemberReadAs (plainPlatform 0) plainHooks k) members fields := by
  induction h with
  | nil => exact ⟨0, fun _ _ => .nil⟩
  | cons hm _ ih =>
    obtain ⟨hkey, d, hvalue⟩ := hm
    obtain ⟨d', hrest⟩ := ih
    exact ⟨max d d', fun k hk => .cons ⟨hkey, hvalue k ((le_max_left _ _).trans hk)⟩
      (hrest k ((le_max_right _ _).trans hk))⟩

/-- Members in the order they are written. -/
theorem reads_members {members : List Member} {fields : List (PyText × Json)}
    (h : List.Forall₂ MemberReads members fields) :
    Reads (bracket '{' '}' (members.map Member.text)) (.obj fields) := by
  obtain ⟨d, hread⟩ := exists_memberReadAs h
  refine ⟨d + 1, fun k hk => ?_⟩
  obtain ⟨k, rfl⟩ := Nat.exists_eq_add_of_le' (Nat.le_trans (Nat.le_add_left 1 _) hk)
  refine readAs_members (fun _ _ => rfl) ?_
  rw [ofJsonFields_eq_map]
  exact List.forall₂_map_left_iff.mpr (List.forall₂_map_right_iff.mpr
    ((hread k (Nat.le_of_succ_le_succ hk)).imp fun _ _ => MemberReadAs.text))

/-- Members in sorted order. -/
theorem reads_renderObject {members : List Member} {fields : List (PyText × Json)}
    (h : List.Forall₂ MemberReads members fields) :
    Reads (renderObject members) (.obj (fields.insertionSort fun a b => a.1.le b.1 = true)) := by
  refine reads_members (forall₂_insertionSort (fun m f m' f' hm hm' => ?_) h)
  rw [hm.1, hm'.1]
  rfl

/-- **Values with one canonical text differ in the order of their members only.** -/
theorem canonical_inj {j j' : Json} {c : List Char} (h : canonical j = some c) (h' : canonical j' = some c)
    (hu : j.UniqueKeys) (hu' : j'.UniqueKeys) : j.sortKeys = j'.sortKeys :=
  (reads_canonical h hu).unique (reads_canonical h' hu')

end Json

end Rpr
