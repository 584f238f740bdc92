import PathwayRuntime.Python.Canonical
import PathwayRuntime.Python.Number

/-!
# Equality of Python values, and of the JSON they are

* `PyValue.same`: `a == b`; a truth value, an integer and a float may be equal.
* `PyValue.Alike`: at corresponding places both values have numbers of one type and sign, or neither has a number.
* `sortKeys_obj_eq_iff`: objects with the same sorted form have the same members.
* **`sortKeys_eq_iff`**: equal values are the same JSON exactly when they are alike.
-/

set_option autoImplicit false

namespace Rpr

/-- Texts are told apart by their code points. -/
theorem PyText.codes_injective : Function.Injective PyText.codes := by
  have hno : ∀ (s : String) (codes : List ℕ), (∃ c ∈ codes, 0xD800 ≤ c ∧ c < 0xE000) →
      s.toList.map Char.toNat ≠ codes := by
    rintro s codes ⟨c, hc, hlo, hhi⟩ rfl
    obtain ⟨ch, -, rfl⟩ := List.mem_map.mp hc
    have hvalid := ch.valid
    rcases hvalid with hvalid | ⟨hvalid, -⟩
    · exact absurd hlo (Nat.not_le_of_lt hvalid)
    · exact absurd hhi (Nat.not_lt_of_le hvalid)
  intro a b h
  cases a with
  | utf8 s =>
    cases b with
    | utf8 t =>
      have hchars := List.map_injective_iff.mpr (fun _ _ => Char.toNat_inj.mp) h
      exact congrArg utf8 (String.toList_injective hchars)
    | lone codes hcodes => exact absurd h (hno s codes hcodes)
  | lone codes hcodes =>
    cases b with
    | utf8 t => exact absurd h.symm (hno t codes hcodes)
    | lone codes' hcodes' =>
      obtain rfl : codes = codes' := h
      rfl

/-! ## `a == b` -/

namespace PyValue

/-- A truth value, an integer or a float. -/
def number? : PyValue → Option Json
  | .bool b => some (.bool b)
  | .int i => some (.int i)
  | .float x => some (.float x)
  | _ => Option.none

/-- `a == b`, of numbers. -/
def sameNumber (v w : PyValue) : Bool :=
  match v.number?, w.number? with
  | some a, some b => a.sameNumber b
  | _, _ => false

section Same

variable (sameObject : PyValue → PyValue → Bool)

mutual
/-- `a == b`; `sameObject` is what foreign objects answer. -/
def same : PyValue → PyValue → Bool
  | .none, .none => true
  | .str s, .str t => s == t
  | .list items, .list items' => sameItems items items'
  | .tuple items, .tuple items' => sameItems items items'
  | .dict fields, .dict fields' => fields.length == fields'.length && sameFields fields fields'
  | .object t form, w => sameObject (.object t form) w
  | v, .object t form => sameObject v (.object t form)
  | v, w => v.sameNumber w

def sameItems : List PyValue → List PyValue → Bool
  | [], [] => true
  | v :: items, w :: items' => same v w && sameItems items items'
  | _, _ => false

/-- Every member is in the other dict, with an equal value. -/
def sameFields : PyDict → PyDict → Bool
  | [], _ => true
  | (key, v) :: fields, fields' => (match fields'.lookup key with
    | some w => same v w
    | Option.none => false) && sameFields fields fields'
end

end Same

/-! ## Numbers of one type -/

/-- `type(v)` of a number, with the sign bit of a float. -/
inductive NumberType : Type
  | bool
  | int
  | float (neg : Bool)
  deriving DecidableEq

def numberType? : PyValue → Option NumberType
  | .bool _ => some .bool
  | .int _ => some .int
  | .float (.finite x) => some (.float x.neg)
  | .float (.inf neg) => some (.float neg)
  | .float .nan => some (.float false)
  | _ => Option.none

mutual
/-- At corresponding places both have a number of one type and sign, or neither has a number. -/
def Alike : PyValue → PyValue → Prop
  | .list items, .list items' => AlikeItems items items'
  | .tuple items, .tuple items' => AlikeItems items items'
  | .dict fields, .dict fields' => AlikeFields fields fields'
  | v, w => v.numberType? = w.numberType?

def AlikeItems : List PyValue → List PyValue → Prop
  | v :: items, w :: items' => Alike v w ∧ AlikeItems items items'
  | _, _ => True

/-- The members under one key. -/
def AlikeFields : PyDict → PyDict → Prop
  | [], _ => True
  | (key, v) :: fields, fields' => (match fields'.lookup key with
    | some w => Alike v w
    | Option.none => True) ∧ AlikeFields fields fields'
end

end PyValue

/-! ## Sorted objects -/

namespace Json

/-- Objects with the same members have one sorted form. -/
theorem sortKeys_obj_eq_iff {fields fields' : List (PyText × Json)} (hnd : (fields.map Prod.fst).Nodup)
    (hnd' : (fields'.map Prod.fst).Nodup) (hlen : fields.length = fields'.length) :
    (obj fields).sortKeys = (obj fields').sortKeys ↔
      ∀ f ∈ fields, (fields'.lookup f.1).map sortKeys = some f.2.sortKeys := by
  have hmem : ∀ {fs : List (PyText × Json)}, (fs.map Prod.fst).Nodup → ∀ {k : PyText} {u : Json},
      (k, u) ∈ sortFields fs ↔ (fs.lookup k).map sortKeys = some u := by
    intro fs hfs k u
    rw [sortFields_eq_map, List.mem_map, Option.map_eq_some_iff]
    simp only [lookup_eq_some hfs, Prod.exists, Prod.mk.injEq]
    exact ⟨fun ⟨k', v, hv, hk, hu⟩ => ⟨v, hk ▸ hv, hu⟩, fun ⟨v, hv, hu⟩ => ⟨k, v, hv, rfl, hu⟩⟩
  have hsorted : ∀ fs : List (PyText × Json), (sortFields fs).Perm
      ((sortFields fs).insertionSort fun a b => a.1.le b.1 = true) :=
    fun fs => (List.perm_insertionSort _ _).symm
  rw [sortKeys, sortKeys, Json.obj.injEq]
  constructor
  · intro h f hf
    have hperm : (sortFields fields).Perm (sortFields fields') :=
      (hsorted fields).trans (h ▸ (hsorted fields').symm)
    refine (hmem hnd').mp (hperm.mem_iff.mp ?_)
    rw [sortFields_eq_map]
    exact List.mem_map.mpr ⟨f, hf, rfl⟩
  · intro h
    have hsubset : sortFields fields ⊆ sortFields fields' := by
      intro f hf
      rw [sortFields_eq_map] at hf
      obtain ⟨g, hg, rfl⟩ := List.mem_map.mp hf
      exact (hmem hnd').mpr (h g hg)
    have hkeys : ((sortFields fields).map Prod.fst).Nodup := by
      rw [keys_sortFields]
      exact hnd
    have hkeys' : ((sortFields fields').map Prod.fst).Nodup := by
      rw [keys_sortFields]
      exact hnd'
    have hperm : (sortFields fields).Perm (sortFields fields') :=
      (hkeys.of_map.subperm hsubset).perm_of_length_le (by simp [sortFields_eq_map, hlen])
    refine List.Perm.eq_of_pairwise (fun a b ha hb hab hba => ?_) (List.pairwise_insertionSort _ _)
      (List.pairwise_insertionSort _ _) (((hsorted fields).symm.trans hperm).trans (hsorted fields'))
    have ha' := hperm.mem_iff.mp ((List.mem_insertionSort _).mp ha)
    have hb' := (List.mem_insertionSort _).mp hb
    rw [PyText.le_iff] at hab hba
    exact List.inj_on_of_nodup_map hkeys' ha' hb' (PyText.codes_injective (le_antisymm hab hba))

end Json

/-! ## Equal values that are the same JSON -/

namespace PyValue

open Json

/-- Floats that are equal are the same but for the sign of zero. -/
theorem float_eq_of_same {x y : PyFloat} (h : x.same y = true)
    (htype : (float x).numberType? = (float y).numberType?) : x = y := by
  match x, y with
  | .finite x, .finite y =>
    obtain ⟨neg, digits, exp, hx⟩ := x
    obtain ⟨neg', digits', exp', hy⟩ := y
    simp only [numberType?, Option.some.injEq, NumberType.float.injEq] at htype
    simp only [PyFloat.same, Decimal.same, Bool.or_eq_true, Bool.and_eq_true, beq_iff_eq] at h
    rcases h with h | ⟨h, h'⟩
    · rw [h]
    · subst htype h h'
      have hexp : exp = 0 := by simpa using hx
      have hexp' : exp' = 0 := by simpa using hy
      subst hexp hexp'
      rfl
  | .inf neg, .inf neg' => rw [beq_iff_eq.mp h]

/-- Equal numbers are the same number when they have one type. -/
theorem number_eq_iff {v w : PyValue} (h : v.sameNumber w = true) : v = w ↔ v.numberType? = w.numberType? := by
  refine ⟨congrArg numberType?, fun htype => ?_⟩
  match v, w with
  | .bool b, .bool b' =>
    cases b <;> cases b' <;> first | rfl | exact absurd h (by decide)
  | .int i, .int i' =>
    obtain rfl : i = i' := by simpa [sameNumber, number?, Json.sameNumber, int?] using h
    rfl
  | .float x, .float y => rw [float_eq_of_same h htype]
  | .float x, .bool _ | .float x, .int _ => cases x <;> cases htype

/-- A number is a value that sorting does not change. -/
theorem exists_number {v : PyValue} (h : v.number?.isSome) :
    ∃ a : Json, v = ofJson a ∧ v.listed = v ∧ a.sortKeys = a := by
  cases v with
  | bool b => exact ⟨.bool b, rfl, rfl, rfl⟩
  | int i => exact ⟨.int i, rfl, rfl, rfl⟩
  | float x => exact ⟨.float x, rfl, rfl, rfl⟩
  | none | str _ | list _ | tuple _ | dict _ | object _ _ => cases h

theorem isSome_of_sameNumber {v w : PyValue} (h : v.sameNumber w = true) :
    v.number?.isSome ∧ w.number?.isSome := by
  unfold sameNumber at h
  split at h
  · rename_i hv hw
    exact ⟨Option.isSome_of_eq_some hv, Option.isSome_of_eq_some hw⟩
  · cases h

theorem sortKeys_eq_iff_of_number {v w : PyValue} {j j' : Json} (hj : v.listed = .ofJson j)
    (hj' : w.listed = .ofJson j') (h : v.sameNumber w = true) : j.sortKeys = j'.sortKeys ↔ v.Alike w := by
  obtain ⟨hv, hw⟩ := isSome_of_sameNumber h
  obtain ⟨a, rfl, hlisted, ha⟩ := exists_number hv
  obtain ⟨b, rfl, hlisted', hb⟩ := exists_number hw
  obtain rfl := ofJson_inj a (hlisted.symm.trans hj)
  obtain rfl := ofJson_inj b (hlisted'.symm.trans hj')
  have halike : (ofJson a).Alike (ofJson b) = ((ofJson a).numberType? = (ofJson b).numberType?) := by
    cases a <;> first | rfl | cases hv
  rw [ha, hb, halike, ← number_eq_iff h]
  exact ⟨fun hab => hab ▸ rfl, ofJson_inj a⟩

theorem mem_of_lookup {fields : List (PyText × Json)} {key : PyText} {v : Json} (h : fields.lookup key = some v) :
    (key, v) ∈ fields := by
  obtain ⟨l, l', rfl, -⟩ := List.lookup_eq_some_iff.mp h
  simp

/-- The value that is found in a dict is the JSON that is found in the object it is. -/
theorem lookup_listed {fields : PyDict} {pairs : List (PyText × Json)} (h : listedFields fields = ofJsonFields pairs)
    {key : PyText} {w : PyValue} (hw : fields.lookup (.str key) = some w) :
    ∃ i, pairs.lookup key = some i ∧ w.listed = .ofJson i := by
  induction fields generalizing pairs with
  | nil => cases hw
  | cons f fields ih =>
    cases pairs with
    | nil => cases h
    | cons pair pairs =>
      obtain ⟨k, v⟩ := f
      obtain ⟨k', j⟩ := pair
      obtain ⟨hhead, htail⟩ := List.cons.inj h
      obtain ⟨rfl, hv⟩ := Prod.mk.inj hhead
      by_cases hkey : key = k'
      · subst hkey
        rw [List.lookup_cons, beq_self_eq_true] at hw
        obtain rfl := Option.some.inj hw
        exact ⟨j, by rw [List.lookup_cons, beq_self_eq_true], hv⟩
      · have hne : (PyKey.str key == PyKey.str k') = false :=
          beq_eq_false_iff_ne.mpr fun heq => hkey (PyKey.str.inj heq)
        rw [List.lookup_cons, hne] at hw
        obtain ⟨i, hi, hlisted⟩ := ih htail hw
        exact ⟨i, by rw [List.lookup_cons, beq_eq_false_iff_ne.mpr hkey]; exact hi, hlisted⟩

theorem exists_items {v : PyValue} {items : List PyValue} {j : Json} (hv : v.listed = .list (listedItems items))
    (h : v.listed = .ofJson j) : ∃ js, j = .arr js ∧ listedItems items = ofJsonItems js := by
  rw [hv] at h
  cases j with
  | arr js => exact ⟨js, rfl, list.inj h⟩
  | null | bool _ | int _ | float _ | str _ | obj _ => cases h

theorem exists_pairs {fields : PyDict} {j : Json} (h : (dict fields).listed = .ofJson j) :
    ∃ pairs, j = .obj pairs ∧ listedFields fields = ofJsonFields pairs := by
  cases j with
  | obj pairs => exact ⟨pairs, rfl, dict.inj h⟩
  | null | bool _ | int _ | float _ | str _ | arr _ => cases h

theorem length_listed {fields : PyDict} {pairs : List (PyText × Json)} (h : listedFields fields = ofJsonFields pairs) :
    fields.length = pairs.length := by
  induction fields generalizing pairs with
  | nil =>
    cases pairs with
    | nil => rfl
    | cons pair pairs => cases h
  | cons f fields ih =>
    cases pairs with
    | nil => cases h
    | cons pair pairs => rw [List.length_cons, List.length_cons, ih (List.cons.inj h).2]

section Same

variable {sameObject : PyValue → PyValue → Bool}

mutual
/-- **Equal values are the same JSON exactly when they are alike.** -/
theorem sortKeys_eq_iff (v : PyValue) {w : PyValue} {j j' : Json} (hj : v.listed = .ofJson j)
    (hj' : w.listed = .ofJson j') (hu : j.UniqueKeys) (hu' : j'.UniqueKeys) (h : same sameObject v w = true) :
    j.sortKeys = j'.sortKeys ↔ v.Alike w := by
  match v with
  | .object _ _ => cases j <;> cases hj
  | .bool _ | .int _ | .float _ =>
    cases w with
    | object _ _ => cases j' <;> cases hj'
    | _ => exact sortKeys_eq_iff_of_number hj hj' h
  | .none =>
    cases w with
    | none =>
      obtain rfl := ofJson_inj j (hj.symm.trans hj')
      exact iff_of_true rfl rfl
    | object _ _ => cases j' <;> cases hj'
    | _ => exact sortKeys_eq_iff_of_number hj hj' h
  | .str s =>
    cases w with
    | str t =>
      obtain rfl : s = t := beq_iff_eq.mp h
      obtain rfl := ofJson_inj j (hj.symm.trans hj')
      exact iff_of_true rfl rfl
    | object _ _ => cases j' <;> cases hj'
    | _ => exact sortKeys_eq_iff_of_number hj hj' h
  | .list items =>
    cases w with
    | list items' =>
      obtain ⟨js, rfl, hjs⟩ := exists_items rfl hj
      obtain ⟨js', rfl, hjs'⟩ := exists_items rfl hj'
      rw [Json.sortKeys, Json.sortKeys, Json.arr.injEq]
      exact sortItems_eq_iff items hjs hjs' hu hu' h
    | object _ _ => cases j' <;> cases hj'
    | _ => exact sortKeys_eq_iff_of_number hj hj' h
  | .tuple items =>
    cases w with
    | tuple items' =>
      obtain ⟨js, rfl, hjs⟩ := exists_items rfl hj
      obtain ⟨js', rfl, hjs'⟩ := exists_items rfl hj'
      rw [Json.sortKeys, Json.sortKeys, Json.arr.injEq]
      exact sortItems_eq_iff items hjs hjs' hu hu' h
    | object _ _ => cases j' <;> cases hj'
    | _ => exact sortKeys_eq_iff_of_number hj hj' h
  | .dict fields =>
    cases w with
    | dict fields' =>
      obtain ⟨hlen, hfields⟩ := Bool.and_eq_true_iff.mp h
      obtain ⟨pairs, rfl, hpairs⟩ := exists_pairs hj
      obtain ⟨pairs', rfl, hpairs'⟩ := exists_pairs hj'
      have hlen' : pairs.length = pairs'.length := by
        rw [← length_listed hpairs, ← length_listed hpairs']
        exact beq_iff_eq.mp hlen
      rw [sortKeys_obj_eq_iff hu.1 hu'.1 hlen']
      exact sortFields_eq_iff fields hpairs hpairs' hu.2 hu'.2 hfields
    | object _ _ => cases j' <;> cases hj'
    | _ => exact sortKeys_eq_iff_of_number hj hj' h

theorem sortItems_eq_iff (items : List PyValue) {items' : List PyValue} {js js' : List Json}
    (hj : listedItems items = ofJsonItems js) (hj' : listedItems items' = ofJsonItems js')
    (hu : UniqueItems js) (hu' : UniqueItems js') (h : sameItems sameObject items items' = true) :
    sortItems js = sortItems js' ↔ AlikeItems items items' := by
  match items, items', js, js' with
  | [], [], [], [] => exact iff_of_true rfl trivial
  | v :: items, w :: items', j :: js, j' :: js' =>
    obtain ⟨hv, hitems⟩ := List.cons.inj hj
    obtain ⟨hw, hitems'⟩ := List.cons.inj hj'
    rw [sameItems, Bool.and_eq_true] at h
    rw [sortItems, sortItems, List.cons.injEq, AlikeItems, sortKeys_eq_iff v hv hw hu.1 hu'.1 h.1,
      sortItems_eq_iff items hitems hitems' hu.2 hu'.2 h.2]

theorem sortFields_eq_iff (fields : PyDict) {fields' : PyDict} {pairs pairs' : List (PyText × Json)}
    (hj : listedFields fields = ofJsonFields pairs) (hj' : listedFields fields' = ofJsonFields pairs')
    (hu : UniqueFields pairs) (hu' : UniqueFields pairs') (h : sameFields sameObject fields fields' = true) :
    (∀ f ∈ pairs, (pairs'.lookup f.1).map sortKeys = some f.2.sortKeys) ↔ AlikeFields fields fields' := by
  match fields, pairs with
  | [], [] => exact iff_of_true (fun _ hf => (List.not_mem_nil hf).elim) trivial
  | (key, v) :: fields, (k, j) :: pairs =>
    obtain ⟨hhead, hfields⟩ := List.cons.inj hj
    obtain ⟨rfl, hv⟩ := Prod.mk.inj hhead
    rw [sameFields, Bool.and_eq_true] at h
    obtain ⟨hsame, h⟩ := h
    rw [List.forall_mem_cons, AlikeFields, sortFields_eq_iff fields hfields hj' hu.2 hu' h]
    refine and_congr_left fun _ => ?_
    cases hw : fields'.lookup (.str k) with
    | none =>
      rw [hw] at hsame
      cases hsame
    | some w =>
      rw [hw] at hsame
      obtain ⟨i, hi, hlisted⟩ := lookup_listed hj' hw
      rw [hi, Option.map_some, Option.some.injEq, eq_comm]
      exact sortKeys_eq_iff v hv hlisted hu.1 (uniqueFields_iff.mp hu' _ (mem_of_lookup hi)) hsame
end

end Same

end PyValue

end Rpr
