import PathwayRuntime.Python.Canonical
import PathwayRuntime.Python.Items

/-!
# `json.loads` without hooks

* `defaultHooks`: a later member replaces an earlier one with its key.
* `listed_ofJson`: decoded values have no tuples.
* `scanOnce_all`: what hooks and scalars guarantee holds of all that is read.
* **`loads_uniqueKeys`**: no object that is loaded has repeated keys.
-/

set_option autoImplicit false

namespace Rpr

/-- `json.loads` without hooks: a later member replaces an earlier one with its key. -/
def defaultHooks : JsonHooks where
  objectPairs pairs := .ok (.obj (pairs.foldl (fun fields m => setField m.1 m.2 fields) []))
  parseConstant name := .ok (.float (if name = "NaN" then .nan else .inf (name = "-Infinity")))

theorem foldl_setField {pairs fields : List (PyText × Json)} (h : ((fields ++ pairs).map Prod.fst).Nodup) :
    pairs.foldl (fun fields m => setField m.1 m.2 fields) fields = fields ++ pairs := by
  induction pairs generalizing fields with
  | nil => rw [List.foldl_nil, List.append_nil]
  | cons m pairs ih =>
    rw [List.foldl_cons, setField_of_notMem (key_notMem_of_nodup h), ih (by simpa using h), List.append_assoc]
    rfl

theorem defaultHooks_keepsObjects : defaultHooks.KeepsObjects :=
  fun _ h => congrArg (fun fields => Except.ok (Json.obj fields)) (foldl_setField h)

/-- A finite float is the one its digits are read as. -/
def Json.IsFloat (py : JsonPlatform) : Json → Prop
  | .float (.finite x) => py.readFloat x = .finite x
  | _ => True

theorem Json.IsFloat.readsFloats {py : JsonPlatform} : ∀ j, IsFloat py j → ReadsFloats py defaultHooks j
  | .float (.finite _), h => fun _ => readAs_float h
  | .float (.inf neg), _ => fun _ =>
    readAs_constant rfl (congrArg (fun x => Except.ok (Json.float x)) (constantOf_repr (x := .inf neg) rfl))
  | .float .nan, _ => fun _ =>
    readAs_constant rfl (congrArg (fun x => Except.ok (Json.float x)) (constantOf_repr (x := .nan) rfl))
  | .null, _ | .bool _, _ | .int _, _ | .str _, _ | .arr _, _ | .obj _, _ => trivial

mutual
/-- Decoded values have no tuples. -/
theorem listed_ofJson (j : Json) : (PyValue.ofJson j).listed = .ofJson j := by
  match j with
  | .null | .bool _ | .int _ | .float _ | .str _ => rfl
  | .arr items => rw [PyValue.ofJson, PyValue.listed, listedItems_ofJson items]
  | .obj fields => rw [PyValue.ofJson, PyValue.listed, listedFields_ofJson fields]

theorem listedItems_ofJson (items : List Json) :
    PyValue.listedItems (PyValue.ofJsonItems items) = PyValue.ofJsonItems items := by
  match items with
  | [] => rfl
  | x :: items => rw [PyValue.ofJsonItems, PyValue.listedItems, listed_ofJson x, listedItems_ofJson items]

theorem listedFields_ofJson (fields : List (PyText × Json)) :
    PyValue.listedFields (PyValue.ofJsonFields fields) = PyValue.ofJsonFields fields := by
  match fields with
  | [] => rfl
  | (k, v) :: fields =>
    rw [PyValue.ofJsonFields, PyValue.listedFields, listed_ofJson v, listedFields_ofJson fields]
end

/-! ## Properties of all that is read -/

/-- Whatever is read has the property. -/
def ReadsOnly {α : Type} (P : α → Prop) (scan : List Char → Scanned α) : Prop :=
  ∀ text a rest, scan text = .ok (a, rest) → P a

/-- Reading one more item keeps a property of all items. -/
theorem cons_eq_ok {α : Type} {x : α} {r : Scanned (List α)} {xs : List α} {rest : List Char}
    (h : r.cons x = .ok (xs, rest)) : ∃ ys, r = .ok (ys, rest) ∧ xs = x :: ys := by
  cases r with
  | error e => cases h
  | ok p =>
    obtain ⟨ys, text⟩ := p
    obtain ⟨rfl, rfl⟩ := Prod.mk.inj (Except.ok.inj h)
    exact ⟨ys, rfl, rfl⟩

section All

variable {P : Json → Prop} {scan : List Char → Scanned Json} (hscan : ReadsOnly P scan)

include hscan

theorem scanItems_all (turns : ℕ) : ReadsOnly (fun items => ∀ j ∈ items, P j) (scanItems scan turns) := by
  induction turns with
  | zero => exact fun _ _ _ h => nomatch h
  | succ turns ih =>
    intro text items rest h
    rw [scanItems] at h
    split at h
    · cases h
    · rename_i item text' hitem
      split at h
      · obtain ⟨items, hitems, rfl⟩ := cons_eq_ok h
        exact List.forall_mem_cons.mpr ⟨hscan _ _ _ hitem, ih _ _ _ hitems⟩
      · obtain ⟨rfl, -⟩ := Prod.mk.inj (Except.ok.inj h)
        exact List.forall_mem_singleton.mpr (hscan _ _ _ hitem)
      · cases h

theorem scanArray_all : ReadsOnly (fun items => ∀ j ∈ items, P j) (scanArray scan) := by
  intro text items rest h
  rw [scanArray] at h
  split at h
  · obtain ⟨rfl, -⟩ := Prod.mk.inj (Except.ok.inj h)
    exact fun _ hj => (List.not_mem_nil hj).elim
  · exact scanItems_all hscan _ _ _ _ h

theorem scanMembers_all (turns : ℕ) :
    ReadsOnly (fun pairs : List (PyText × Json) => ∀ f ∈ pairs, P f.2) (scanMembers scan turns) := by
  induction turns with
  | zero => exact fun _ _ _ h => nomatch h
  | succ turns ih =>
    intro text pairs rest h
    unfold scanMembers at h
    split at h
    · rename_i turns' text' hturns
      split at h
      · cases h
      · rename_i key text₁ hkey
        split at h
        · rename_i text₂ hcolon
          split at h
          · cases h
          · rename_i value text₃ hvalue
            split at h
            · obtain ⟨pairs, hpairs, rfl⟩ := cons_eq_ok h
              obtain rfl := Nat.succ.inj hturns
              exact List.forall_mem_cons.mpr ⟨hscan _ _ _ hvalue, ih _ _ _ hpairs⟩
            · obtain ⟨rfl, -⟩ := Prod.mk.inj (Except.ok.inj h)
              exact List.forall_mem_singleton.mpr (hscan _ _ _ hvalue)
            · cases h
        · cases h
    · cases h

theorem scanObject_all : ReadsOnly (fun pairs : List (PyText × Json) => ∀ f ∈ pairs, P f.2) (scanObject scan) := by
  intro text pairs rest h
  rw [scanObject] at h
  split at h
  · obtain ⟨rfl, -⟩ := Prod.mk.inj (Except.ok.inj h)
    exact fun _ hf => (List.not_mem_nil hf).elim
  · exact scanMembers_all hscan _ _ _ _ h

end All

theorem map_eq_ok {ε α β : Type} {x : Except ε α} {f : α → β} {b : β} (h : x.map f = .ok b) :
    ∃ a, x = .ok a ∧ f a = b := by
  cases x with
  | error e => cases h
  | ok a => exact ⟨a, rfl, Except.ok.inj h⟩

/-- What hooks and scalars guarantee. -/
structure Guarantees (py : JsonPlatform) (hooks : JsonHooks) (P : Json → Prop) : Prop where
  text : ∀ s, P (.str s)
  number : ReadsOnly P (scanNumber py)
  word : ∀ text r, scanWord hooks text = some r → ∀ j rest, r = .ok (j, rest) → P j
  array : ∀ items, (∀ j ∈ items, P j) → P (.arr items)
  object : ∀ pairs j, (∀ f ∈ pairs, P f.2) → hooks.objectPairs pairs = .ok j → P j

section Guarantee

variable {py : JsonPlatform} {hooks : JsonHooks} {P : Json → Prop}

theorem scanValue_all (hP : Guarantees py hooks P) {nested : Option (List Char → Scanned Json)}
    (hnested : ∀ scan, nested = some scan → ReadsOnly P scan) : ReadsOnly P (scanValue py hooks nested) := by
  intro text j rest h
  unfold scanValue at h
  split at h
  · obtain ⟨s, -, hj⟩ := map_eq_ok h
    obtain ⟨rfl, -⟩ := Prod.mk.inj hj
    exact hP.text _
  · split at h
    · cases h
    · rename_i scan
      obtain ⟨items, hitems, hj⟩ := map_eq_ok h
      obtain ⟨rfl, -⟩ := Prod.mk.inj hj
      exact hP.array _ (scanArray_all (hnested scan rfl) _ _ _ hitems)
  · split at h
    · cases h
    · rename_i scan
      split at h
      · cases h
      · rename_i pairs text' hpairs
        obtain ⟨j', hobject, hj⟩ := map_eq_ok h
        obtain ⟨rfl, -⟩ := Prod.mk.inj hj
        refine hP.object pairs j' (scanObject_all (hnested scan rfl) _ _ _ hpairs) ?_
        cases hpair : hooks.objectPairs pairs with
        | error e =>
          rw [hpair] at hobject
          cases hobject
        | ok j'' =>
          rw [hpair] at hobject
          exact congrArg _ (Except.ok.inj hobject)
  · cases hword : scanWord hooks text with
    | none =>
      rw [hword] at h
      exact hP.number _ _ _ h
    | some r =>
      rw [hword] at h
      exact hP.word text r hword j rest h

/-- **All that is read has the property.** -/
theorem scanOnce_all (hP : Guarantees py hooks P) (frames : ℕ) : ReadsOnly P (scanOnce py hooks frames) := by
  induction frames with
  | zero => exact scanValue_all hP nofun
  | succ frames ih =>
    refine scanValue_all hP fun scan hscan => ?_
    rw [← Option.some.inj hscan]
    exact ih

/-- What is loaded has the property. -/
theorem loads_all (hP : Guarantees py hooks P) {text : List Char} {j : Json} (h : loads py hooks text = .ok j) :
    P j := by
  rw [loads] at h
  split_ifs at h
  split at h
  · cases h
  · cases h
  · rename_i value rest hscan
    split_ifs at h
    obtain rfl := Except.ok.inj h
    exact scanOnce_all hP _ _ _ _ hscan

end Guarantee

/-! ## Keys of objects -/

/-- Setting members one after another repeats no key. -/
theorem foldl_setField_unique {pairs fields : List (PyText × Json)} (hnd : (fields.map Prod.fst).Nodup)
    (hfields : Json.UniqueFields fields) (hpairs : ∀ f ∈ pairs, f.2.UniqueKeys) :
    (Json.obj (pairs.foldl (fun fields m => setField m.1 m.2 fields) fields)).UniqueKeys := by
  induction pairs generalizing fields with
  | nil => exact ⟨hnd, hfields⟩
  | cons m pairs ih =>
    obtain ⟨hm, hrest⟩ := List.forall_mem_cons.mp hpairs
    obtain ⟨hnd', hfields'⟩ := @uniqueFields_setField m.1 m.2 fields hnd hfields hm
    exact ih hnd' hfields' hrest

theorem scanNumber_uniqueKeys (py : JsonPlatform) : ReadsOnly Json.UniqueKeys (scanNumber py) := by
  intro text j rest h
  unfold scanNumber at h
  dsimp only at h
  split at h
  · cases h
  · split_ifs at h
    · obtain ⟨i, hi, hj⟩ := map_eq_ok h
      obtain ⟨rfl, -⟩ := Prod.mk.inj hj
      rw [intOfDigits] at hi
      split_ifs at hi <;>
        · cases hi
          trivial
    · cases h
      trivial

theorem scanWord_uniqueKeys {text : List Char} {r : Scanned Json} (h : scanWord defaultHooks text = some r)
    (j : Json) (rest : List Char) (hr : r = .ok (j, rest)) : j.UniqueKeys := by
  obtain ⟨⟨word, value⟩, hmem, h⟩ := List.exists_of_findSome?_eq_some h
  dsimp only at h
  split_ifs at h
  obtain rfl := Option.some.inj h
  simp only [words, defaultHooks, List.mem_cons, Prod.mk.injEq, List.not_mem_nil, or_false] at hmem
  rcases hmem with ⟨-, rfl⟩ | ⟨-, rfl⟩ | ⟨-, rfl⟩ | ⟨-, rfl⟩ | ⟨-, rfl⟩ | ⟨-, rfl⟩ <;>
    · cases hr
      trivial

/-- **No object that is loaded has repeated keys.** -/
theorem loads_uniqueKeys {py : JsonPlatform} {text : List Char} {j : Json}
    (h : loads py defaultHooks text = .ok j) : j.UniqueKeys := by
  refine loads_all ⟨fun _ => trivial, scanNumber_uniqueKeys py, fun _ _ => scanWord_uniqueKeys,
    fun _ => Json.uniqueItems_iff.mpr, fun pairs j hpairs hj => ?_⟩ h
  obtain rfl := Except.ok.inj hj
  exact foldl_setField_unique List.nodup_nil trivial hpairs

end Rpr
