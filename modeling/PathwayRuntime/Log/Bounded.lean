import PathwayRuntime.Model.Column
import PathwayRuntime.Model.System

/-!
# How large a redacted payload is

* `Json.nesting`, `Json.kept`: how deep a value is nested, and how many values it has.
* `Json.Bounded`: the bounds of a policy; `Fits`: the payloads that keep them.
* **`redact_bounded_iff`**: what redaction returns is bounded exactly when the payload fits. The items are always
  bounded, and the nesting of all that is not replaced.
-/

set_option autoImplicit false

namespace Rpr

/-! ## Bounds -/

/-- A text is within the limit. -/
def RedactionPolicy.Allows (p : RedactionPolicy) (s : PyText) : Prop := (s.length : ℤ) ≤ p.maxStringLength

instance (p : RedactionPolicy) (s : PyText) : Decidable (p.Allows s) :=
  inferInstanceAs (Decidable ((s.length : ℤ) ≤ p.maxStringLength))

namespace Json

section Measures

variable (skip : PyText → Bool)

mutual
/-- How many containers the most deeply nested value stands in, values under the keys skipped left out. -/
def nesting : Json → ℕ
  | .arr items => nestingItems items
  | .obj fields => nestingFields fields
  | _ => 0

def nestingItems : List Json → ℕ
  | [] => 0
  | x :: xs => max (nesting x + 1) (nestingItems xs)

def nestingFields : List (PyText × Json) → ℕ
  | [] => 0
  | (k, v) :: fields => max (if skip k then 0 else nesting v + 1) (nestingFields fields)
end

mutual
/-- How many values there are, those under the keys skipped left out. -/
def kept : Json → ℕ
  | .arr items => 1 + keptItems items
  | .obj fields => 1 + keptFields fields
  | _ => 1

def keptItems : List Json → ℕ
  | [] => 0
  | x :: xs => kept x + keptItems xs

def keptFields : List (PyText × Json) → ℕ
  | [] => 0
  | (k, v) :: fields => (if skip k then 0 else kept v) + keptFields fields
end

end Measures

/-- A scalar is no text, or one within the limit. -/
def IsAllowed (p : RedactionPolicy) : Json → Prop
  | .str s => p.Allows s
  | _ => True

/-- The bounds of a policy: on the texts, on the nesting, and on the values that are not replaced. -/
structure Bounded (py : Platform) (p : RedactionPolicy) (j : Json) : Prop where
  texts : j.Leaves (IsAllowed p)
  nesting : (j.nesting (fun _ => false) : ℤ) ≤ p.maxDepth
  items : (j.kept (p.sensitive py) : ℤ) ≤ p.maxItems

end Json

section Fits

variable (py : Platform) (p : RedactionPolicy)

mutual
/-- The keys and the `str()` of foreign objects are within the limit, and nothing is replaced below the depth
limit. What is stored under a key that occurs again with the same text is not looked at. -/
def Fits (depth : ℤ) : PyValue → Prop
  | .list items => FitsItems (depth + 1) items
  | .tuple items => FitsItems (depth + 1) items
  | .dict fields => FitsFields (depth + 1) fields
  | .object _ form => p.Allows form
  | _ => True

def FitsItems (depth : ℤ) : List PyValue → Prop
  | [] => True
  | item :: items => Fits depth item ∧ FitsItems depth items

def FitsFields (depth : ℤ) : List (PyKey × PyValue) → Prop
  | [] => True
  | (key, item) :: fields =>
    p.Allows key.form ∧
      (if p.sensitive py key.form then depth ≤ p.maxDepth else key.form ∈ fields.map (·.1.form) ∨ Fits depth item) ∧
      FitsFields depth fields
end

end Fits

/-! ## The measures of containers -/

namespace Json

theorem nestingItems_le {skip : PyText → Bool} {items : List Json} {n : ℕ} :
    nestingItems skip items ≤ n ↔ ∀ j ∈ items, j.nesting skip + 1 ≤ n := by
  induction items with
  | nil => exact ⟨fun _ _ h => (List.not_mem_nil h).elim, fun _ => Nat.zero_le _⟩
  | cons j items ih => rw [nestingItems, max_le_iff, ih, List.forall_mem_cons]

theorem nestingFields_le {skip : PyText → Bool} {fields : List (PyText × Json)} {n : ℕ} :
    nestingFields skip fields ≤ n ↔ ∀ f ∈ fields, skip f.1 = false → f.2.nesting skip + 1 ≤ n := by
  induction fields with
  | nil => exact ⟨fun _ _ h => (List.not_mem_nil h).elim, fun _ => Nat.zero_le _⟩
  | cons f fields ih =>
    rw [nestingFields, max_le_iff, ih, List.forall_mem_cons]
    cases hskip : skip f.1 <;> simp

/-- The values of an array are nested one deeper. -/
theorem nesting_arr_le {skip : PyText → Bool} {items : List Json} {depth limit : ℤ} (hdepth : depth ≤ limit) :
    depth + (arr items).nesting skip ≤ limit ↔ ∀ j ∈ items, depth + 1 + j.nesting skip ≤ limit := by
  obtain ⟨n, hn⟩ := Int.eq_ofNat_of_zero_le (Int.sub_nonneg_of_le hdepth)
  have hnesting : depth + (nestingItems skip items : ℤ) ≤ limit ↔ nestingItems skip items ≤ n := by omega
  rw [nesting, hnesting, nestingItems_le]
  exact forall₂_congr fun j _ => by omega

/-- The members of an object are nested one deeper. -/
theorem nesting_obj_le {skip : PyText → Bool} {fields : List (PyText × Json)} {depth limit : ℤ}
    (hdepth : depth ≤ limit) : depth + (obj fields).nesting skip ≤ limit ↔
      ∀ f ∈ fields, skip f.1 = false → depth + 1 + f.2.nesting skip ≤ limit := by
  obtain ⟨n, hn⟩ := Int.eq_ofNat_of_zero_le (Int.sub_nonneg_of_le hdepth)
  have hnesting : depth + (nestingFields skip fields : ℤ) ≤ limit ↔ nestingFields skip fields ≤ n := by omega
  rw [nesting, hnesting, nestingFields_le]
  exact forall₃_congr fun f _ _ => by omega

/-- A member that is set replaces the one under its key. -/
theorem keptFields_setField (skip : PyText → Bool) (key : PyText) (v : Json) (fields : List (PyText × Json)) :
    keptFields skip (setField key v fields) ≤ (if skip key then 0 else kept skip v) + keptFields skip fields := by
  induction fields with
  | nil => exact Nat.le_refl _
  | cons f fields ih =>
    obtain ⟨k, w⟩ := f
    by_cases hkey : k = key
    · rw [setField, if_pos hkey, keptFields, keptFields, hkey]
      exact Nat.add_le_add_left (Nat.le_add_left _ _) _
    · rw [setField, if_neg hkey, keptFields, keptFields, Nat.add_left_comm]
      exact Nat.add_le_add_left ih _

end Json

section Bounds

open RedactionPolicy

variable {py : Platform} {p : RedactionPolicy}

/-- The texts are within the limit, and nothing is nested too deeply for a value at this depth. -/
def Json.BoundedAt (p : RedactionPolicy) (depth : ℤ) (j : Json) : Prop :=
  j.Leaves (Json.IsAllowed p) ∧ depth + j.nesting (fun _ => false) ≤ p.maxDepth

theorem boundedAt_arr {depth : ℤ} (hdepth : depth ≤ p.maxDepth) {items : List Json} :
    (Json.arr items).BoundedAt p depth ↔ ∀ j ∈ items, j.BoundedAt p (depth + 1) := by
  rw [Json.BoundedAt, Json.Leaves, Json.leavesItems_iff, Json.nesting_arr_le hdepth]
  exact forall₂_and.symm

/-- A member is within the bounds. -/
def MemberBoundedAt (p : RedactionPolicy) (depth : ℤ) (f : PyText × Json) : Prop :=
  p.Allows f.1 ∧ f.2.BoundedAt p depth

theorem boundedAt_obj {depth : ℤ} (hdepth : depth ≤ p.maxDepth) {fields : List (PyText × Json)} :
    (Json.obj fields).BoundedAt p depth ↔ ∀ f ∈ fields, MemberBoundedAt p (depth + 1) f := by
  rw [Json.BoundedAt, Json.Leaves, Json.leavesFields_iff, Json.nesting_obj_le hdepth, ← forall₂_and]
  refine forall₂_congr fun f _ => ?_
  rw [forall_prop_of_true rfl, and_assoc]
  rfl

/-- What is spent first: one item, at a depth within the limit. -/
theorem spend_eq_ok {depth b b₁ : ℤ} (h : p.spend depth b = .ok b₁) : depth ≤ p.maxDepth ∧ b₁ = b - 1 ∧ 0 ≤ b₁ := by
  rw [spend] at h
  split_ifs at h with hdepth hitems
  cases h
  exact ⟨Int.not_lt.mp hdepth, rfl, Int.not_lt.mp hitems⟩

/-- A scalar is within the bounds when it is allowed. -/
theorem boundedAt_scalar {depth : ℤ} {j : Json} (hdepth : depth ≤ p.maxDepth)
    (hleaves : j.Leaves (Json.IsAllowed p) ↔ Json.IsAllowed p j) (hnesting : j.nesting (fun _ => false) = 0) :
    j.BoundedAt p depth ↔ Json.IsAllowed p j := by
  rw [Json.BoundedAt, hleaves, hnesting, Int.natCast_zero, Int.add_zero]
  exact and_iff_left hdepth

/-- What a scalar costs. -/
theorem kept_scalar {depth b b₁ : ℤ} {skip : PyText → Bool} {j : Json}
    (hspend : depth ≤ p.maxDepth ∧ b₁ = b - 1 ∧ 0 ≤ b₁) (hkept : j.kept skip = 1) (hnesting : j.nesting skip = 0) :
    j.kept skip + b₁ ≤ b ∧ 0 ≤ b₁ ∧ depth + j.nesting skip ≤ p.maxDepth := by
  obtain ⟨hdepth, rfl, hb⟩ := hspend
  rw [hkept, hnesting]
  omega

/-- The keys that occur fit. -/
theorem FitsFields.of_mem {depth : ℤ} {fields : List (PyKey × PyValue)} (h : FitsFields py p depth fields)
    {key : PyText} (hkey : key ∈ fields.map (·.1.form)) :
    p.Allows key ∧ (p.sensitive py key = true → depth ≤ p.maxDepth) := by
  induction fields with
  | nil => cases hkey
  | cons f fields ih =>
    obtain ⟨k, item⟩ := f
    obtain ⟨hallows, hitem, hrest⟩ := h
    rcases List.mem_cons.mp hkey with rfl | hkey
    · exact ⟨hallows, fun hs => by rwa [if_pos hs] at hitem⟩
    · exact ih hrest hkey

/-- A member that is not set again is within the bounds, and the others fit. -/
theorem memberBoundedAt_and_fitsFields {depth : ℤ} {fields : List (PyKey × PyValue)} {key : PyText} {j : Json}
    {X : Prop} (hX : FitsFields py p depth fields → (X ↔ key ∈ fields.map (·.1.form) ∨ j.BoundedAt p depth)) :
    (key ∉ fields.map (·.1.form) → MemberBoundedAt p depth (key, j)) ∧ FitsFields py p depth fields ↔
      p.Allows key ∧ X ∧ FitsFields py p depth fields := by
  constructor
  · rintro ⟨hkey, hfields⟩
    by_cases hmem : key ∈ fields.map (·.1.form)
    · exact ⟨(hfields.of_mem hmem).1, (hX hfields).mpr (.inl hmem), hfields⟩
    · obtain ⟨hallows, hbounded⟩ := hkey hmem
      exact ⟨hallows, (hX hfields).mpr (.inr hbounded), hfields⟩
  · rintro ⟨hallows, hx, hfields⟩
    exact ⟨fun hmem => ⟨hallows, ((hX hfields).mp hx).resolve_left hmem⟩, hfields⟩

/-- The members set before a field, and the field. -/
theorem forall_mem_setField {key : PyText} {v : Json} {output : List (PyText × Json)}
    (hnd : (output.map Prod.fst).Nodup) {keys : List PyText} {P : PyText × Json → Prop} :
    (∀ f ∈ setField key v output, f.1 ∉ keys → P f) ↔
      (key ∉ keys → P (key, v)) ∧ ∀ f ∈ output, f.1 ∉ key :: keys → P f := by
  simp only [mem_setField hnd, List.mem_cons, not_or]
  constructor
  · exact fun h => ⟨h _ (.inl rfl), fun f hf hkeys => h f (.inr ⟨hf, hkeys.1⟩) hkeys.2⟩
  · rintro ⟨hkey, hrest⟩ f (rfl | ⟨hf, hfk⟩) hkeys
    · exact hkey hkeys
    · exact hrest f hf ⟨hfk, hkeys⟩

mutual
/-- **What redaction stores is within the bounds exactly when the value fits.** -/
theorem boundedAt_redactValue (hreplacement : p.Allows p.replacement) (v : PyValue) {depth b b' : ℤ} {j : Json}
    (h : redactValue py p depth v b = .ok (j, b')) : j.BoundedAt p depth ↔ Fits py p depth v := by
  match v with
  | .none | .bool _ | .int _ | .float _ | .object _ _ =>
    rw [redactValue] at h
    obtain ⟨b₁, hb, h⟩ := except_bind_eq_ok.mp h
    cases h
    exact boundedAt_scalar (spend_eq_ok hb).1 Iff.rfl rfl
  | .str s =>
    rw [redactValue] at h
    obtain ⟨b₁, hb, h⟩ := except_bind_eq_ok.mp h
    split_ifs at h with hlength
    cases h
    exact (boundedAt_scalar (spend_eq_ok hb).1 Iff.rfl rfl).trans (iff_true_intro (Int.not_lt.mp hlength))
  | .list items | .tuple items =>
    rw [redactValue] at h
    obtain ⟨b₁, hb, h⟩ := except_bind_eq_ok.mp h
    obtain ⟨⟨js, b₂⟩, hitems, h⟩ := except_bind_eq_ok.mp h
    cases h
    exact (boundedAt_arr (spend_eq_ok hb).1).trans (boundedAt_redactItems hreplacement items hitems)
  | .dict fields =>
    rw [redactValue] at h
    obtain ⟨b₁, hb, h⟩ := except_bind_eq_ok.mp h
    obtain ⟨⟨out, b₂⟩, hfields, h⟩ := except_bind_eq_ok.mp h
    cases h
    rw [boundedAt_obj (spend_eq_ok hb).1, boundedAt_redactFields hreplacement fields (by simp) hfields]
    exact and_iff_right fun _ hf => (List.not_mem_nil hf).elim

theorem boundedAt_redactItems (hreplacement : p.Allows p.replacement) (items : List PyValue) {depth b b' : ℤ}
    {js : List Json} (h : redactItems py p depth items b = .ok (js, b')) :
    (∀ j ∈ js, j.BoundedAt p depth) ↔ FitsItems py p depth items := by
  match items with
  | [] =>
    cases h
    exact iff_of_true (fun _ hj => (List.not_mem_nil hj).elim) trivial
  | item :: items =>
    rw [redactItems] at h
    obtain ⟨⟨j, b₁⟩, hitem, h⟩ := except_bind_eq_ok.mp h
    obtain ⟨⟨js, b₂⟩, hitems, h⟩ := except_bind_eq_ok.mp h
    cases h
    rw [List.forall_mem_cons, FitsItems, boundedAt_redactValue hreplacement item hitem,
      boundedAt_redactItems hreplacement items hitems]

/-- Of the members set before, those that are not set again are left. -/
theorem boundedAt_redactFields (hreplacement : p.Allows p.replacement) (fields : List (PyKey × PyValue))
    {depth b b' : ℤ} {output out : List (PyText × Json)} (hnd : (output.map Prod.fst).Nodup)
    (h : redactFields py p depth fields output b = .ok (out, b')) :
    (∀ f ∈ out, MemberBoundedAt p depth f) ↔
      (∀ f ∈ output, f.1 ∉ fields.map (·.1.form) → MemberBoundedAt p depth f) ∧ FitsFields py p depth fields := by
  match fields with
  | [] =>
    cases h
    exact ⟨fun h => ⟨fun f hf _ => h f hf, trivial⟩, fun h f hf => h.1 f hf List.not_mem_nil⟩
  | (key, item) :: fields =>
    rw [redactFields] at h
    rw [FitsFields, List.map_cons]
    split_ifs at h with hs
    · rw [boundedAt_redactFields hreplacement fields (nodup_setField hnd) h, forall_mem_setField hnd, if_pos hs,
        and_right_comm, memberBoundedAt_and_fitsFields fun hfields => ?_, and_comm]
      have hbounded : (Json.str p.replacement).BoundedAt p depth ↔ depth ≤ p.maxDepth := by
        rw [Json.BoundedAt, show (Json.str p.replacement).nesting (fun _ => false) = 0 from rfl, Int.natCast_zero,
          Int.add_zero]
        exact and_iff_right hreplacement
      rw [hbounded]
      exact ⟨.inr, fun hor => hor.elim (fun hmem => (hfields.of_mem hmem).2 hs) id⟩
    · obtain ⟨⟨j, b₁⟩, hitem, h⟩ := except_bind_eq_ok.mp h
      rw [boundedAt_redactFields hreplacement fields (nodup_setField hnd) h, forall_mem_setField hnd, if_neg hs,
        and_right_comm, memberBoundedAt_and_fitsFields fun _ => ?_, and_comm]
      rw [boundedAt_redactValue hreplacement item hitem]
end

mutual
/-- What is stored has cost an item for every value that is not replaced, and these are within the depth limit. -/
theorem kept_redactValue (v : PyValue) {depth b b' : ℤ} {j : Json}
    (h : redactValue py p depth v b = .ok (j, b')) : j.kept (p.sensitive py) + b' ≤ b ∧ 0 ≤ b' ∧
      depth + j.nesting (p.sensitive py) ≤ p.maxDepth := by
  match v with
  | .none | .bool _ | .int _ | .float _ | .object _ _ =>
    rw [redactValue] at h
    obtain ⟨b₁, hb, h⟩ := except_bind_eq_ok.mp h
    cases h
    exact kept_scalar (spend_eq_ok hb) rfl rfl
  | .str s =>
    rw [redactValue] at h
    obtain ⟨b₁, hb, h⟩ := except_bind_eq_ok.mp h
    split_ifs at h with hlength
    cases h
    exact kept_scalar (spend_eq_ok hb) rfl rfl
  | .list items | .tuple items =>
    rw [redactValue] at h
    obtain ⟨b₁, hb, h⟩ := except_bind_eq_ok.mp h
    obtain ⟨⟨js, b₂⟩, hitems, h⟩ := except_bind_eq_ok.mp h
    cases h
    obtain ⟨hdepth, rfl, hb⟩ := spend_eq_ok hb
    obtain ⟨hkept, hbudget, hnesting⟩ := kept_redactItems items hb hitems
    refine ⟨?_, hbudget, (Json.nesting_arr_le hdepth).mpr hnesting⟩
    rw [Json.kept]
    omega
  | .dict fields =>
    rw [redactValue] at h
    obtain ⟨b₁, hb, h⟩ := except_bind_eq_ok.mp h
    obtain ⟨⟨out, b₂⟩, hfields, h⟩ := except_bind_eq_ok.mp h
    cases h
    obtain ⟨hdepth, rfl, hb⟩ := spend_eq_ok hb
    obtain ⟨hkept, hbudget, hnesting⟩ := kept_redactFields fields (by simp) hb
      (fun _ hf => (List.not_mem_nil hf).elim) hfields
    refine ⟨?_, hbudget, (Json.nesting_obj_le hdepth).mpr hnesting⟩
    rw [Json.keptFields] at hkept
    rw [Json.kept]
    omega

theorem kept_redactItems (items : List PyValue) {depth b b' : ℤ} {js : List Json} (hb : 0 ≤ b)
    (h : redactItems py p depth items b = .ok (js, b')) : Json.keptItems (p.sensitive py) js + b' ≤ b ∧ 0 ≤ b' ∧
      ∀ j ∈ js, depth + j.nesting (p.sensitive py) ≤ p.maxDepth := by
  match items with
  | [] =>
    cases h
    exact ⟨by rw [Json.keptItems]; omega, hb, fun _ hj => (List.not_mem_nil hj).elim⟩
  | item :: items =>
    rw [redactItems] at h
    obtain ⟨⟨j, b₁⟩, hitem, h⟩ := except_bind_eq_ok.mp h
    obtain ⟨⟨js, b₂⟩, hitems, h⟩ := except_bind_eq_ok.mp h
    cases h
    obtain ⟨hkept, hb₁, hnesting⟩ := kept_redactValue item hitem
    obtain ⟨hkepts, hb₂, hnestings⟩ := kept_redactItems items hb₁ hitems
    refine ⟨?_, hb₂, List.forall_mem_cons.mpr ⟨hnesting, hnestings⟩⟩
    rw [Json.keptItems]
    omega

theorem kept_redactFields (fields : List (PyKey × PyValue)) {depth b b' : ℤ} {output out : List (PyText × Json)}
    (hnd : (output.map Prod.fst).Nodup) (hb : 0 ≤ b)
    (houtput : ∀ f ∈ output, p.sensitive py f.1 = false → depth + f.2.nesting (p.sensitive py) ≤ p.maxDepth)
    (h : redactFields py p depth fields output b = .ok (out, b')) :
    Json.keptFields (p.sensitive py) out + b' ≤ Json.keptFields (p.sensitive py) output + b ∧ 0 ≤ b' ∧
      ∀ f ∈ out, p.sensitive py f.1 = false → depth + f.2.nesting (p.sensitive py) ≤ p.maxDepth := by
  match fields with
  | [] =>
    cases h
    exact ⟨Int.le_refl _, hb, houtput⟩
  | (key, item) :: fields =>
    rw [redactFields] at h
    split_ifs at h with hs
    · obtain ⟨hkept, hbudget, hnesting⟩ := kept_redactFields fields (nodup_setField hnd) hb (fun f hf hfs => by
        rcases (mem_setField hnd).mp hf with rfl | ⟨hf, -⟩
        · exact absurd hs (by rw [hfs]; decide)
        · exact houtput f hf hfs) h
      have hset := Json.keptFields_setField (p.sensitive py) key.form (.str p.replacement) output
      rw [if_pos hs] at hset
      exact ⟨by omega, hbudget, hnesting⟩
    · obtain ⟨⟨j, b₁⟩, hitem, h⟩ := except_bind_eq_ok.mp h
      obtain ⟨hkeptItem, hb₁, hnestingItem⟩ := kept_redactValue item hitem
      obtain ⟨hkept, hbudget, hnesting⟩ := kept_redactFields fields (nodup_setField hnd) hb₁ (fun f hf hfs => by
        rcases (mem_setField hnd).mp hf with rfl | ⟨hf, -⟩
        · exact hnestingItem
        · exact houtput f hf hfs) h
      have hset := Json.keptFields_setField (p.sensitive py) key.form j output
      rw [if_neg hs] at hset
      exact ⟨by omega, hbudget, hnesting⟩
end

/-- **How far redacted evidence is bounded**: the items always are, and the nesting of all that is not replaced.
All the bounds are kept exactly when the payload fits: its keys and the `str()` of its foreign objects are within
the limit, and no key is hidden at the depth limit. -/
theorem redact_bounded_iff (hreplacement : p.Allows p.replacement) {v : PyValue} {j : Json}
    (h : p.redact py v = .ok j) : (j.Bounded py p ↔ Fits py p 0 v) ∧ (j.kept (p.sensitive py) : ℤ) ≤ p.maxItems ∧
      (j.nesting (p.sensitive py) : ℤ) ≤ p.maxDepth := by
  rw [redact] at h
  obtain ⟨⟨j, b⟩, hvalue, h⟩ := except_bind_eq_ok.mp h
  cases h
  obtain ⟨hkept, hb, hnesting⟩ := kept_redactValue v hvalue
  rw [Int.zero_add] at hnesting
  have hitems : (j.kept (p.sensitive py) : ℤ) ≤ p.maxItems := by omega
  refine ⟨?_, hitems, hnesting⟩
  rw [← boundedAt_redactValue hreplacement v hvalue, Json.BoundedAt, Int.zero_add]
  exact ⟨fun h => ⟨h.texts, h.nesting⟩, fun h => ⟨h.1, h.2, hitems⟩⟩

end Bounds

/-! ## A key beyond the limit -/

/-- A policy that allows texts as long as its replacement. -/
def shortPolicy : RedactionPolicy := { RedactionPolicy.default with maxStringLength := 10 }

/-- A payload with a key of fourteen characters. -/
def longKeyPayload : PyValue := .ofFields [("correlation_id", .int 1)]

theorem redact_bounded_correlated : (Json.obj [("id", .int 1)]).Bounded .sample shortPolicy :=
  have hredact : shortPolicy.redact .sample (.ofFields [("id", .int 1)]) = .ok _ := rfl
  ((redact_bounded_iff (by decide) hredact).1).mpr ⟨by decide, .inr trivial, trivial⟩

/-- **A key is not bounded**: it is stored, however long it is. -/
theorem key_not_bounded : shortPolicy.Allows shortPolicy.replacement ∧
    shortPolicy.redact .sample longKeyPayload = .ok (.obj [("correlation_id", .int 1)]) ∧
      ¬ (Json.obj [("correlation_id", .int 1)]).Bounded .sample shortPolicy :=
  ⟨by decide, rfl, fun h => absurd h.texts.1 (by decide : ¬ shortPolicy.Allows "correlation_id")⟩

end Rpr
