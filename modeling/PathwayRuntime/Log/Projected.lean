import PathwayRuntime.Log.Bounded
import PathwayRuntime.Log.Chain

/-!
# Redaction is a projection

* `Json.Hides`: nothing stands under a hidden key but the replacement; `Json.VisibleTexts`: the texts elsewhere.
* `hides_redactValue`: what is stored hides; `redactValue_ofJson`: what hides is stored as it is.
* `redact_again_iff`: redacting what was stored.
* **`interleaved_redacted_again`**: so for every event of every history.
-/

set_option autoImplicit false

namespace Rpr

open Resume

/-! ## What is hidden and what is not -/

namespace Json

section Members

variable (skip : PyText → Bool)

mutual
/-- Under a key that is skipped stands this text, and elsewhere nothing else is hidden. -/
def Hides (replacement : PyText) : Json → Prop
  | .arr items => HidesItems replacement items
  | .obj fields => HidesFields replacement fields
  | _ => True

def HidesItems (replacement : PyText) : List Json → Prop
  | [] => True
  | j :: items => Hides replacement j ∧ HidesItems replacement items

def HidesFields (replacement : PyText) : List (PyText × Json) → Prop
  | [] => True
  | (key, v) :: fields =>
    (if skip key then v = .str replacement else Hides replacement v) ∧ HidesFields replacement fields
end

mutual
/-- Every text has the property that stands under no key that is skipped. -/
def VisibleTexts (P : PyText → Prop) : Json → Prop
  | .str s => P s
  | .arr items => VisibleItems P items
  | .obj fields => VisibleFields P fields
  | _ => True

def VisibleItems (P : PyText → Prop) : List Json → Prop
  | [] => True
  | j :: items => VisibleTexts P j ∧ VisibleItems P items

def VisibleFields (P : PyText → Prop) : List (PyText × Json) → Prop
  | [] => True
  | (key, v) :: fields => (skip key = false → VisibleTexts P v) ∧ VisibleFields P fields
end

/-- A member that hides what it should. -/
def MemberHides (replacement : PyText) (f : PyText × Json) : Prop :=
  if skip f.1 then f.2 = .str replacement else Hides skip replacement f.2

end Members

variable {skip : PyText → Bool} {replacement : PyText}

theorem hidesItems_iff {items : List Json} :
    HidesItems skip replacement items ↔ ∀ j ∈ items, j.Hides skip replacement := by
  induction items with
  | nil => exact iff_of_true trivial fun _ h => (List.not_mem_nil h).elim
  | cons j items ih => rw [HidesItems, ih, List.forall_mem_cons]

theorem hidesFields_iff {fields : List (PyText × Json)} :
    HidesFields skip replacement fields ↔ ∀ f ∈ fields, MemberHides skip replacement f := by
  induction fields with
  | nil => exact iff_of_true trivial fun _ h => (List.not_mem_nil h).elim
  | cons f fields ih => rw [HidesFields, ih, List.forall_mem_cons, MemberHides]

end Json

section Redact

open RedactionPolicy

variable {py : Platform} {p : RedactionPolicy}

/-! ## What is stored hides -/

mutual
/-- **What is stored hides** all that the policy hides. -/
theorem hides_redactValue (v : PyValue) {depth b b' : ℤ} {j : Json}
    (h : redactValue py p depth v b = .ok (j, b')) : j.Hides (p.sensitive py) p.replacement := by
  match v with
  | .none | .bool _ | .int _ | .float _ | .object _ _ =>
    rw [redactValue] at h
    obtain ⟨b₁, -, h⟩ := except_bind_eq_ok.mp h
    cases h
    trivial
  | .str s =>
    rw [redactValue] at h
    obtain ⟨b₁, -, h⟩ := except_bind_eq_ok.mp h
    split_ifs at h
    cases h
    trivial
  | .list items | .tuple items =>
    rw [redactValue] at h
    obtain ⟨b₁, -, h⟩ := except_bind_eq_ok.mp h
    obtain ⟨⟨js, b₂⟩, hitems, h⟩ := except_bind_eq_ok.mp h
    cases h
    exact Json.hidesItems_iff.mpr (hides_redactItems items hitems)
  | .dict fields =>
    rw [redactValue] at h
    obtain ⟨b₁, -, h⟩ := except_bind_eq_ok.mp h
    obtain ⟨⟨out, b₂⟩, hfields, h⟩ := except_bind_eq_ok.mp h
    cases h
    refine Json.hidesFields_iff.mpr (hides_redactFields fields (by simp) ?_ hfields)
    exact fun _ hf => (List.not_mem_nil hf).elim

theorem hides_redactItems (items : List PyValue) {depth b b' : ℤ} {js : List Json}
    (h : redactItems py p depth items b = .ok (js, b')) : ∀ j ∈ js, j.Hides (p.sensitive py) p.replacement := by
  match items with
  | [] =>
    cases h
    exact fun _ hj => (List.not_mem_nil hj).elim
  | item :: items =>
    rw [redactItems] at h
    obtain ⟨⟨j, b₁⟩, hitem, h⟩ := except_bind_eq_ok.mp h
    obtain ⟨⟨js, b₂⟩, hitems, h⟩ := except_bind_eq_ok.mp h
    cases h
    exact List.forall_mem_cons.mpr ⟨hides_redactValue item hitem, hides_redactItems items hitems⟩

theorem hides_redactFields (fields : List (PyKey × PyValue)) {depth b b' : ℤ} {output out : List (PyText × Json)}
    (hnd : (output.map Prod.fst).Nodup)
    (houtput : ∀ f ∈ output, Json.MemberHides (p.sensitive py) p.replacement f)
    (h : redactFields py p depth fields output b = .ok (out, b')) :
    ∀ f ∈ out, Json.MemberHides (p.sensitive py) p.replacement f := by
  match fields with
  | [] =>
    cases h
    exact houtput
  | (key, item) :: fields =>
    rw [redactFields] at h
    split_ifs at h with hs
    · refine hides_redactFields fields (nodup_setField hnd) (fun f hf => ?_) h
      rcases (mem_setField hnd).mp hf with rfl | ⟨hf, -⟩
      · exact (if_pos hs).mpr rfl
      · exact houtput f hf
    · obtain ⟨⟨j, b₁⟩, hitem, h⟩ := except_bind_eq_ok.mp h
      refine hides_redactFields fields (nodup_setField hnd) (fun f hf => ?_) h
      rcases (mem_setField hnd).mp hf with rfl | ⟨hf, -⟩
      · exact (if_neg hs).mpr (hides_redactValue item hitem)
      · exact houtput f hf
end

/-! ## What hides is stored as it is -/

/-- One item is left to spend. -/
theorem spend_ok {depth b : ℤ} (hdepth : depth ≤ p.maxDepth) (hb : 1 ≤ b) : p.spend depth b = .ok (b - 1) := by
  rw [spend, if_neg (Int.not_lt.mpr hdepth), if_neg (by omega)]

theorem one_le_kept (skip : PyText → Bool) (j : Json) : 1 ≤ j.kept skip := by
  cases j with
  | arr items => exact Nat.le_add_right 1 _
  | obj fields => exact Nat.le_add_right 1 _
  | _ => exact Nat.le_refl 1

mutual
/-- **What hides is stored as it is**, for an item a visible value. -/
theorem redactValue_ofJson (j : Json) {depth b : ℤ} (hunique : j.UniqueKeys)
    (hhides : j.Hides (p.sensitive py) p.replacement) (htexts : j.VisibleTexts (p.sensitive py) p.Allows)
    (hdepth : depth + j.nesting (p.sensitive py) ≤ p.maxDepth) (hkept : (j.kept (p.sensitive py) : ℤ) ≤ b) :
    redactValue py p depth (.ofJson j) b = .ok (j, b - j.kept (p.sensitive py)) := by
  have hdepth' : depth ≤ p.maxDepth := by omega
  have hspend : p.spend depth b = .ok (b - 1) := spend_ok hdepth' (by
    have := one_le_kept (p.sensitive py) j
    omega)
  match j with
  | .null | .bool _ | .int _ | .float _ =>
    rw [PyValue.ofJson, redactValue, hspend]
    rfl
  | .str s =>
    rw [PyValue.ofJson, redactValue, hspend]
    exact if_neg (Int.not_lt.mpr htexts)
  | .arr items =>
    rw [Json.kept] at hkept ⊢
    rw [PyValue.ofJson, redactValue, hspend]
    have hitems := redactItems_ofJson items hunique hhides htexts ((Json.nesting_arr_le hdepth').mp hdepth)
      (b := b - 1) (by omega)
    simp only [bind, Except.bind, hitems]
    rw [Nat.cast_add, Nat.cast_one, Int.sub_sub]
  | .obj fields =>
    rw [Json.kept] at hkept ⊢
    rw [PyValue.ofJson, redactValue, hspend]
    have hfields := redactFields_ofJson fields [] hunique.1 hunique.2 hhides htexts
      ((Json.nesting_obj_le hdepth').mp hdepth) (b := b - 1) (by omega)
    simp only [bind, Except.bind, hfields]
    rw [Nat.cast_add, Nat.cast_one, Int.sub_sub, List.nil_append]

theorem redactItems_ofJson (items : List Json) {depth b : ℤ} (hunique : Json.UniqueItems items)
    (hhides : Json.HidesItems (p.sensitive py) p.replacement items)
    (htexts : Json.VisibleItems (p.sensitive py) p.Allows items)
    (hdepth : ∀ j ∈ items, depth + j.nesting (p.sensitive py) ≤ p.maxDepth)
    (hkept : (Json.keptItems (p.sensitive py) items : ℤ) ≤ b) :
    redactItems py p depth (PyValue.ofJsonItems items) b = .ok (items, b - Json.keptItems (p.sensitive py) items) := by
  match items with
  | [] =>
    rw [PyValue.ofJsonItems, redactItems, Json.keptItems, Nat.cast_zero, Int.sub_zero]
  | j :: items =>
    obtain ⟨hfirst, hrest⟩ := List.forall_mem_cons.mp hdepth
    rw [Json.keptItems] at hkept ⊢
    have hitem := redactValue_ofJson j hunique.1 hhides.1 htexts.1 hfirst (b := b) (by omega)
    have hitems := redactItems_ofJson items hunique.2 hhides.2 htexts.2 hrest
      (b := b - j.kept (p.sensitive py)) (by omega)
    rw [PyValue.ofJsonItems, redactItems]
    simp only [bind, Except.bind, hitem, hitems]
    rw [Nat.cast_add, Int.sub_sub]

theorem redactFields_ofJson (fields output : List (PyText × Json)) {depth b : ℤ}
    (hnd : ((output ++ fields).map Prod.fst).Nodup) (hunique : Json.UniqueFields fields)
    (hhides : Json.HidesFields (p.sensitive py) p.replacement fields)
    (htexts : Json.VisibleFields (p.sensitive py) p.Allows fields)
    (hdepth : ∀ f ∈ fields, p.sensitive py f.1 = false → depth + f.2.nesting (p.sensitive py) ≤ p.maxDepth)
    (hkept : (Json.keptFields (p.sensitive py) fields : ℤ) ≤ b) :
    redactFields py p depth (PyValue.ofJsonFields fields) output b =
      .ok (output ++ fields, b - Json.keptFields (p.sensitive py) fields) := by
  match fields with
  | [] =>
    rw [PyValue.ofJsonFields, redactFields, Json.keptFields, Nat.cast_zero, Int.sub_zero, List.append_nil]
  | (key, v) :: fields =>
    obtain ⟨hfirst, hrest⟩ := List.forall_mem_cons.mp hdepth
    obtain ⟨hmember, hothers⟩ := hhides
    have hset : ∀ w, setField key w output = output ++ [(key, w)] := fun w =>
      setField_of_notMem (key_notMem_of_nodup hnd)
    have hnd' : (((output ++ [(key, v)]) ++ fields).map Prod.fst).Nodup := by
      rwa [List.append_assoc, List.singleton_append]
    rw [Json.keptFields] at hkept ⊢
    rw [PyValue.ofJsonFields, redactFields, show (PyKey.str key).form = key from rfl]
    by_cases hs : p.sensitive py key = true
    · rw [if_pos hs] at hmember hkept ⊢
      subst hmember
      rw [if_pos hs, hset, redactFields_ofJson fields _ hnd' hunique.2 hothers htexts.2 hrest (by omega),
        List.append_assoc, Nat.zero_add]
      rfl
    · have hs' : p.sensitive py key = false := by simpa using hs
      rw [if_neg hs] at hmember hkept ⊢
      have hitem := redactValue_ofJson v hunique.1 hmember (htexts.1 hs') (hfirst hs') (b := b) (by omega)
      have hfields := redactFields_ofJson fields (output ++ [(key, v)]) hnd' hunique.2 hothers htexts.2 hrest
        (b := b - v.kept (p.sensitive py)) (by omega)
      rw [if_neg hs]
      simp only [bind, Except.bind, hitem]
      rw [hset, hfields, List.append_assoc, Nat.cast_add, Int.sub_sub]
      rfl
end

/-! ## What is stored as it is -/

mutual
/-- The texts that are redacted without being replaced are within the limit. -/
theorem visibleTexts_of_redactValue (j : Json) {depth b b' : ℤ} {j' : Json}
    (h : redactValue py p depth (.ofJson j) b = .ok (j', b')) : j.VisibleTexts (p.sensitive py) p.Allows := by
  match j with
  | .null | .bool _ | .int _ | .float _ => trivial
  | .str s =>
    rw [PyValue.ofJson, redactValue] at h
    obtain ⟨b₁, -, h⟩ := except_bind_eq_ok.mp h
    split_ifs at h with hlength
    exact Int.not_lt.mp hlength
  | .arr items =>
    rw [PyValue.ofJson, redactValue] at h
    obtain ⟨b₁, -, h⟩ := except_bind_eq_ok.mp h
    obtain ⟨⟨js, b₂⟩, hitems, -⟩ := except_bind_eq_ok.mp h
    exact visibleItems_of_redactItems items hitems
  | .obj fields =>
    rw [PyValue.ofJson, redactValue] at h
    obtain ⟨b₁, -, h⟩ := except_bind_eq_ok.mp h
    obtain ⟨⟨out, b₂⟩, hfields, -⟩ := except_bind_eq_ok.mp h
    exact visibleFields_of_redactFields fields hfields

theorem visibleItems_of_redactItems (items : List Json) {depth b b' : ℤ} {js : List Json}
    (h : redactItems py p depth (PyValue.ofJsonItems items) b = .ok (js, b')) :
    Json.VisibleItems (p.sensitive py) p.Allows items := by
  match items with
  | [] => trivial
  | j :: items =>
    rw [PyValue.ofJsonItems, redactItems] at h
    obtain ⟨⟨j', b₁⟩, hitem, h⟩ := except_bind_eq_ok.mp h
    obtain ⟨⟨js, b₂⟩, hitems, -⟩ := except_bind_eq_ok.mp h
    exact ⟨visibleTexts_of_redactValue j hitem, visibleItems_of_redactItems items hitems⟩

theorem visibleFields_of_redactFields (fields : List (PyText × Json)) {depth b b' : ℤ}
    {output out : List (PyText × Json)}
    (h : redactFields py p depth (PyValue.ofJsonFields fields) output b = .ok (out, b')) :
    Json.VisibleFields (p.sensitive py) p.Allows fields := by
  match fields with
  | [] => trivial
  | (key, v) :: fields =>
    rw [PyValue.ofJsonFields, redactFields] at h
    split_ifs at h with hs
    · exact ⟨fun hs' => absurd (hs.symm.trans hs') (by decide), visibleFields_of_redactFields fields h⟩
    · obtain ⟨⟨j, b₁⟩, hitem, h⟩ := except_bind_eq_ok.mp h
      exact ⟨fun _ => visibleTexts_of_redactValue v hitem, visibleFields_of_redactFields fields h⟩
end

/-- **Redacting what was stored** stores the same, where it succeeds, and it succeeds exactly when the texts that are
not replaced are within the limit: the `str()` of a foreign object is stored however long it is. -/
theorem redact_again_iff {v : PyValue} {j : Json} (h : p.redact py v = .ok j) (j' : Json) :
    p.redact py (.ofJson j) = .ok j' ↔ j' = j ∧ j.VisibleTexts (p.sensitive py) p.Allows := by
  rw [redact] at h
  obtain ⟨⟨stored, b⟩, hvalue, h⟩ := except_bind_eq_ok.mp h
  obtain rfl : stored = j := Except.ok.inj h
  obtain ⟨hkept, hb, hnesting⟩ := kept_redactValue v hvalue
  have hagain (htexts : stored.VisibleTexts (p.sensitive py) p.Allows) :
      p.redact py (.ofJson stored) = .ok stored := by
    rw [redact, redactValue_ofJson stored (redactValue_uniqueKeys v hvalue) (hides_redactValue v hvalue) htexts hnesting
      (by omega)]
    rfl
  constructor
  · intro hj'
    have htexts : stored.VisibleTexts (p.sensitive py) p.Allows := by
      rw [redact] at hj'
      cases hvalue' : redactValue py p 0 (.ofJson stored) p.maxItems with
      | error e => rw [hvalue'] at hj'; cases hj'
      | ok r => exact visibleTexts_of_redactValue stored hvalue'
    exact ⟨Except.ok.inj (hj'.symm.trans (hagain htexts)), htexts⟩
  · rintro ⟨rfl, htexts⟩
    exact hagain htexts

end Redact

/-! ## In every history -/

/-- Every event was redacted by the policy of the call that recorded it. -/
theorem redacted_of_reach {py : Platform} {order : Option RowOrder} {tr : List Record} {w : World}
    (h : Reach py order tr w) : ∀ e ∈ w.events,
      ∃ r ∈ tr, r.step.inserted = some e ∧ ∃ v, r.caller.policy.redact py v = .ok e.payload := by
  induction h using Reach.induct with
  | start => exact fun e he => by cases he
  | step t c s tr w h ih hj ha h' =>
    intro e he
    have hlog := log_effect (p := e.pathwayId) hj ha
    have hmem : e ∈ (s.effect w).log e.pathwayId := List.mem_filter.mpr ⟨he, by simp⟩
    have hold : e ∈ w.log e.pathwayId → ∃ r ∈ (⟨t, c, w, s⟩ : Record) :: tr, r.step.inserted = some e ∧
        ∃ v, r.caller.policy.redact py v = .ok e.payload := fun hmem => by
      obtain ⟨r, hr, hv⟩ := ih e (List.mem_of_mem_filter hmem)
      exact ⟨r, List.mem_cons_of_mem _ hr, hv⟩
    rcases hlog with ⟨e', hins, -, hlog⟩ | hlog
    · rw [hlog] at hmem
      rcases List.mem_cons.mp hmem with rfl | hmem
      · obtain ⟨ty, actor, payload, base, hseal⟩ := inserted_sealed hj hins
        exact ⟨_, List.mem_cons_self, hins, _, hseal.fields.2.2.2.1⟩
      · exact hold hmem
    · rw [hlog] at hmem
      exact hold hmem

/-- **Evidence is redacted once and for all.** In every interleaving of calls with policies of their own, with crashes:
redacting the payload of a stored event by the policy of the call that recorded it stores the same again, and fails at
most because a text that is not replaced is beyond the limit. -/
theorem interleaved_redacted_again (py : Platform) (order : Option RowOrder) (calls : List (Call × List Oracle))
    (acts : List (Machine.Action Call Oracle)) (e : EvidenceEvent)
    (he : e ∈ (interleaved py order calls acts).world.events) :
    ∃ r ∈ (interleaved py order calls acts).trace, r.step.inserted = some e ∧
      ∀ j, r.caller.policy.redact py (.ofJson e.payload) = .ok j ↔
        j = e.payload ∧ e.payload.VisibleTexts (r.caller.policy.sensitive py) r.caller.policy.Allows := by
  obtain ⟨r, hr, hinserted, v, hv⟩ := redacted_of_reach (interleaved_reach py order calls acts) e he
  exact ⟨r, hr, hinserted, redact_again_iff hv⟩

theorem interleaved_redacted_again_approval : ∃ e ∈ (interleaved .sample none approvalCalls []).world.events,
    ∃ r ∈ (interleaved .sample none approvalCalls []).trace, r.step.inserted = some e ∧
      ∀ j, r.caller.policy.redact .sample (.ofJson e.payload) = .ok j ↔ j = e.payload ∧
        e.payload.VisibleTexts (r.caller.policy.sensitive .sample) r.caller.policy.Allows := by
  have hlength : (interleaved .sample none approvalCalls []).world.events.length = 2 := by
    decide +kernel
  obtain ⟨e, he⟩ := List.exists_mem_of_length_pos (Nat.lt_of_lt_of_eq Nat.zero_lt_two hlength.symm)
  exact ⟨e, he, interleaved_redacted_again .sample none approvalCalls [] e he⟩

end Rpr
