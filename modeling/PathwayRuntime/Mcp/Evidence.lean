import PathwayRuntime.Model.Retained
import PathwayRuntime.Model.System
import PathwayRuntime.Python.Resorted
import PathwayRuntime.Stdio.Json

/-!
# Retained evidence as a format

* `Json.Strict`: finite numbers, and objects with distinct keys that are all allowed.
* `retainedJson_strict`, `retainedJson_ofJson`: the normalized values are the strict ones.
* `McpRetainedEvidence.Nests`: the evidence is not nested too deeply.
* **`evidence_format`**: what is not nested too deeply is written and read back, what is accepted is strict and hashed,
  and the hash determines the payload; `evidence_nested`: a payload nested as deeply as it can be.
-/

set_option autoImplicit false

namespace Rpr

/-! ## Strict JSON -/

namespace Json

mutual
/-- The numbers are finite, and the keys of an object distinct and allowed. -/
def Strict (allowed : PyText → Prop) : Json → Prop
  | .float x => x.isFinite = true
  | .arr items => StrictItems allowed items
  | .obj fields => (fields.map Prod.fst).Nodup ∧ StrictFields allowed fields
  | _ => True

def StrictItems (allowed : PyText → Prop) : List Json → Prop
  | [] => True
  | j :: items => j.Strict allowed ∧ StrictItems allowed items

def StrictFields (allowed : PyText → Prop) : List (PyText × Json) → Prop
  | [] => True
  | (key, j) :: fields => (allowed key ∧ j.Strict allowed) ∧ StrictFields allowed fields
end

variable {allowed : PyText → Prop}

theorem strictFields_iff {fields : List (PyText × Json)} :
    StrictFields allowed fields ↔ ∀ f ∈ fields, allowed f.1 ∧ f.2.Strict allowed := by
  induction fields with
  | nil => exact ⟨fun _ _ h => (List.not_mem_nil h).elim, fun _ => trivial⟩
  | cons f fields ih => rw [StrictFields, ih, List.forall_mem_cons]

mutual
theorem Strict.uniqueKeys : ∀ j : Json, j.Strict allowed → j.UniqueKeys
  | .arr items, h => StrictItems.uniqueItems items h
  | .obj fields, h => ⟨h.1, StrictFields.uniqueFields fields h.2⟩
  | .null, _ | .bool _, _ | .int _, _ | .float _, _ | .str _, _ => trivial

theorem StrictItems.uniqueItems : ∀ items : List Json, StrictItems allowed items → UniqueItems items
  | [], _ => trivial
  | j :: items, h => ⟨Strict.uniqueKeys j h.1, StrictItems.uniqueItems items h.2⟩

theorem StrictFields.uniqueFields :
    ∀ fields : List (PyText × Json), StrictFields allowed fields → UniqueFields fields
  | [], _ => trivial
  | (_, j) :: fields, h => ⟨Strict.uniqueKeys j h.1.2, StrictFields.uniqueFields fields h.2⟩
end

mutual
/-- The floats of a strict value are finite. -/
theorem Strict.isRead {js : JsonPlatform} :
    ∀ j : Json, j.Strict allowed → j.Leaves (IsFloat js) → j.Leaves (IsRead js)
  | .arr items, h, hfloat => StrictItems.isRead items h hfloat
  | .obj fields, h, hfloat => StrictFields.isRead fields h.2 hfloat
  | .float (.finite _), _, hfloat => hfloat
  | .float (.inf _), h, _ | .float .nan, h, _ => absurd (h : false = true) Bool.false_ne_true
  | .null, _, _ | .bool _, _, _ | .int _, _, _ | .str _, _, _ => trivial

theorem StrictItems.isRead {js : JsonPlatform} : ∀ items : List Json, StrictItems allowed items →
    LeavesItems (IsFloat js) items → LeavesItems (IsRead js) items
  | [], _, _ => trivial
  | j :: items, h, hfloat => ⟨Strict.isRead j h.1 hfloat.1, StrictItems.isRead items h.2 hfloat.2⟩

theorem StrictFields.isRead {js : JsonPlatform} : ∀ fields : List (PyText × Json), StrictFields allowed fields →
    LeavesFields (IsFloat js) fields → LeavesFields (IsRead js) fields
  | [], _, _ => trivial
  | (_, j) :: fields, h, hfloat =>
    ⟨trivial, Strict.isRead j h.1.2 hfloat.2.1, StrictFields.isRead fields h.2 hfloat.2.2⟩
end

mutual
/-- Sorting keeps a value strict. -/
theorem strict_sortKeys (j : Json) (h : j.Strict allowed) : j.sortKeys.Strict allowed := by
  match j with
  | .null | .bool _ | .int _ | .float _ | .str _ => exact h
  | .arr items => exact strictItems_sortItems items h
  | .obj fields =>
    refine ⟨?_, strictFields_iff.mpr (forall_mem_sortedFields.mpr (strictFields_sortFields fields h.2))⟩
    rw [((List.perm_insertionSort _ (sortFields fields)).map Prod.fst).nodup_iff, keys_sortFields]
    exact h.1

theorem strictItems_sortItems (items : List Json) (h : StrictItems allowed items) :
    StrictItems allowed (sortItems items) := by
  match items with
  | [] => trivial
  | j :: items => exact ⟨strict_sortKeys j h.1, strictItems_sortItems items h.2⟩

theorem strictFields_sortFields (fields : List (PyText × Json)) (h : StrictFields allowed fields) :
    ∀ f ∈ fields, allowed f.1 ∧ f.2.sortKeys.Strict allowed := by
  match fields with
  | [] => exact fun _ h => (List.not_mem_nil h).elim
  | (key, j) :: fields =>
    exact List.forall_mem_cons.mpr ⟨⟨h.1.1, strict_sortKeys j h.1.2⟩, strictFields_sortFields fields h.2⟩
end

end Json

/-! ## The normalized payload -/

section Normalized

variable (py : Platform)

/-- The key holds no credential fragment. -/
def AllowedKey (key : PyText) : Prop := forbiddenKey py key = false

/-- Setting a member keeps members strict. -/
theorem strictFields_setField {allowed : PyText → Prop} {key : PyText} {value : Json}
    {fields : List (PyText × Json)} (hnd : (fields.map Prod.fst).Nodup)
    (hfields : Json.StrictFields allowed fields) (hkey : allowed key) (hvalue : value.Strict allowed) :
    Json.StrictFields allowed (setField key value fields) := by
  refine Json.strictFields_iff.mpr fun f hf => ?_
  rcases (mem_setField hnd).mp hf with rfl | ⟨hf, -⟩
  · exact ⟨hkey, hvalue⟩
  · exact Json.strictFields_iff.mp hfields f hf

mutual
/-- **What is normalized is strict**, and was nested no more deeply than calls can be. -/
theorem retainedJson_strict (v : PyValue) {frames : ℕ} {path : PyText} {j : Json}
    (h : retainedJson py frames path v = .ok j) : j.Strict (AllowedKey py) ∧ v.depth ≤ frames := by
  match v with
  | .none | .str _ | .bool _ | .int _ =>
    obtain rfl := Except.ok.inj h
    exact ⟨trivial, Nat.zero_le _⟩
  | .float x =>
    rw [retainedJson] at h
    split_ifs at h with hx
    obtain rfl := Except.ok.inj h
    exact ⟨hx, Nat.zero_le _⟩
  | .dict fields =>
    cases frames with
    | zero => cases h
    | succ frames =>
      rw [retainedJson] at h
      obtain ⟨result, hresult, hj⟩ := except_bind_eq_ok.mp h
      obtain rfl := Except.ok.inj hj
      obtain ⟨hstrict, hdepth⟩ := retainedFields_strict fields [] ⟨List.nodup_nil, trivial⟩ hresult
      exact ⟨hstrict, Nat.succ_le_succ hdepth⟩
  | .list items | .tuple items =>
    cases frames with
    | zero => cases h
    | succ frames =>
      rw [retainedJson] at h
      obtain ⟨result, hresult, hj⟩ := except_bind_eq_ok.mp h
      obtain rfl := Except.ok.inj hj
      obtain ⟨hstrict, hdepth⟩ := retainedItems_strict items hresult
      exact ⟨hstrict, Nat.succ_le_succ hdepth⟩
  | .object _ _ =>
    rw [retainedJson] at h
    cases h

theorem retainedItems_strict (items : List PyValue) {frames : ℕ} {path : PyText} {index : ℕ} {js : List Json}
    (h : retainedItems py frames path index items = .ok js) :
    Json.StrictItems (AllowedKey py) js ∧ PyValue.depthItems items ≤ frames := by
  match items with
  | [] =>
    obtain rfl := Except.ok.inj h
    exact ⟨trivial, Nat.zero_le _⟩
  | item :: items =>
    rw [retainedItems] at h
    obtain ⟨j, hj, h⟩ := except_bind_eq_ok.mp h
    obtain ⟨rest, hrest, hjs⟩ := except_bind_eq_ok.mp h
    obtain rfl := Except.ok.inj hjs
    obtain ⟨hstrict, hdepth⟩ := retainedJson_strict item hj
    obtain ⟨hstricts, hdepths⟩ := retainedItems_strict items hrest
    exact ⟨⟨hstrict, hstricts⟩, max_le hdepth hdepths⟩

theorem retainedFields_strict (fields : List (PyKey × PyValue)) {frames : ℕ} {path : PyText}
    (before : List (PyText × Json)) {result : List (PyText × Json)}
    (hbefore : (Json.obj before).Strict (AllowedKey py))
    (h : retainedFields py frames path fields before = .ok result) :
    (Json.obj result).Strict (AllowedKey py) ∧ PyValue.depthFields fields ≤ frames := by
  match fields with
  | [] =>
    obtain rfl := Except.ok.inj h
    exact ⟨hbefore, Nat.zero_le _⟩
  | (.other _, _) :: _ =>
    rw [retainedFields] at h
    cases h
  | (.str key, item) :: fields =>
    rw [retainedFields] at h
    split_ifs at h with hkey
    obtain ⟨j, hj, h⟩ := except_bind_eq_ok.mp h
    obtain ⟨hstrict, hdepth⟩ := retainedJson_strict item hj
    obtain ⟨hresult, hdepths⟩ := retainedFields_strict fields _ ⟨nodup_setField hbefore.1,
      strictFields_setField hbefore.1 hbefore.2 (Bool.eq_false_iff.mpr hkey) hstrict⟩ h
    exact ⟨hresult, max_le hdepth hdepths⟩
end

mutual
/-- **What is strict is normalized already**, as deeply as calls can be nested. -/
theorem retainedJson_ofJson (j : Json) {frames : ℕ} (path : PyText) (h : j.Strict (AllowedKey py))
    (hdepth : (PyValue.ofJson j).depth ≤ frames) : retainedJson py frames path (PyValue.ofJson j) = .ok j := by
  match j with
  | .null | .bool _ | .int _ | .str _ => rfl
  | .float x => exact if_pos h
  | .arr items =>
    obtain ⟨frames, rfl⟩ := Nat.exists_eq_add_of_le' (Nat.le_trans (Nat.le_add_left 1 _) hdepth)
    rw [PyValue.ofJson, retainedJson, retainedItems_ofJson items path 0 h (Nat.le_of_succ_le_succ hdepth)]
    rfl
  | .obj fields =>
    obtain ⟨frames, rfl⟩ := Nat.exists_eq_add_of_le' (Nat.le_trans (Nat.le_add_left 1 _) hdepth)
    rw [PyValue.ofJson, retainedJson,
      retainedFields_ofJson fields path [] h.1 h.2 (Json.depthFields_ofJson_le.mp (Nat.le_of_succ_le_succ hdepth))]
    rfl

theorem retainedItems_ofJson (items : List Json) {frames : ℕ} (path : PyText) (index : ℕ)
    (h : Json.StrictItems (AllowedKey py) items) (hdepth : PyValue.depthItems (PyValue.ofJsonItems items) ≤ frames) :
    retainedItems py frames path index (PyValue.ofJsonItems items) = .ok items := by
  match items with
  | [] => rfl
  | j :: items =>
    rw [PyValue.ofJsonItems, retainedItems, retainedJson_ofJson j _ h.1 ((le_max_left _ _).trans hdepth),
      retainedItems_ofJson items _ _ h.2 ((le_max_right _ _).trans hdepth)]
    rfl

theorem retainedFields_ofJson (fields : List (PyText × Json)) {frames : ℕ} (path : PyText)
    (before : List (PyText × Json)) (hnd : ((before ++ fields).map Prod.fst).Nodup)
    (h : Json.StrictFields (AllowedKey py) fields) (hdepth : ∀ f ∈ fields, (PyValue.ofJson f.2).depth ≤ frames) :
    retainedFields py frames path (PyValue.ofJsonFields fields) before = .ok (before ++ fields) := by
  match fields with
  | [] => rw [PyValue.ofJsonFields, retainedFields, List.append_nil]
  | (key, j) :: fields =>
    have hforbidden : ¬ forbiddenKey py key = true := Bool.eq_false_iff.mp h.1.1
    have hset : setField key j before = before ++ [(key, j)] := setField_of_notMem (key_notMem_of_nodup hnd)
    obtain ⟨hj, hfields⟩ := List.forall_mem_cons.mp hdepth
    have hrest := retainedFields_ofJson fields path (before ++ [(key, j)]) (by simpa using hnd) h.2 hfields
    rw [PyValue.ofJsonFields, retainedFields, if_neg hforbidden, retainedJson_ofJson j _ h.1.2 hj]
    rw [List.append_assoc, ← hset] at hrest
    exact hrest
end

end Normalized

/-! ## The envelope -/

section Envelope

variable {py : Platform} {js : JsonPlatform} {frames : ℕ}

/-- An evidence that was made. -/
theorem evidence_make_eq_ok {payload : PyValue} {sha256 : String} {e : McpRetainedEvidence py}
    (h : McpRetainedEvidence.make py js frames payload sha256 = .ok e) :
    e.payload.Strict (AllowedKey py) ∧ payload.depth ≤ frames := by
  rw [McpRetainedEvidence.make] at h
  split at h
  · cases h
  · rename_i normalized hnormalized
    split at h
    · cases h
    · split_ifs at h
      obtain rfl := Except.ok.inj h
      exact retainedJson_strict py payload hnormalized

/-- The evidence of a strict payload with its hash is made, unless it is nested too deeply. -/
theorem evidence_make_ofJson {j : Json} {sha256 : String} (hj : j.Strict (AllowedKey py))
    (hhash : j.canonical.map py.sha256 = some sha256) (hframes : (PyValue.ofJson j).depth ≤ frames)
    (hencoder : (PyValue.ofJson j).depth ≤ js.encoderFrames) :
    McpRetainedEvidence.make py js frames (PyValue.ofJson j) sha256 = .ok ⟨j, sha256, hhash⟩ := by
  have hnormalized := retainedJson_ofJson py j "$" hj hframes
  have hhashed : hashPayload py js j = .ok sha256 := hashPayload_eq_ok.mpr ⟨hencoder, hhash⟩
  rw [McpRetainedEvidence.make]
  split
  · rename_i hraised
    exact nomatch hnormalized.symm.trans hraised
  · rename_i j' hj'
    obtain rfl := Except.ok.inj (hnormalized.symm.trans hj')
    split
    · rename_i hraised
      exact nomatch hhashed.symm.trans hraised
    · rename_i expected hexpected
      obtain rfl := Except.ok.inj (hhashed.symm.trans hexpected)
      exact dif_pos rfl

/-- The canonical form of a payload. -/
theorem exists_canonical_payload (e : McpRetainedEvidence py) :
    ∃ text, e.payload.canonical = some text ∧ py.sha256 text = e.sha256 := Option.map_eq_some_iff.mp e.hash

/-- A digest: hexadecimal digits, one at least. -/
def IsHexDigest (s : String) : Prop := s ≠ "" ∧ ∀ c ∈ s.toList, c.isDigit = true ∨ 'a' ≤ c ∧ c ≤ 'f'

theorem not_isSpace_of_hex {c : Char} (h : c.isDigit = true ∨ 'a' ≤ c ∧ c ≤ 'f') : isSpace c = false := by
  have hn : 48 ≤ c.toNat ∧ c.toNat ≤ 102 := by
    rcases h with h | h
    · simp only [Char.isDigit, Bool.and_eq_true, decide_eq_true_eq] at h
      exact ⟨h.1, h.2.trans (by decide)⟩
    · exact ⟨(by decide : 48 ≤ 97).trans h.1, h.2⟩
  simp only [isSpace, Bool.or_eq_false_iff, Bool.and_eq_false_iff, decide_eq_false_iff_not, beq_eq_false_iff_ne]
  omega

/-- Stripping keeps a text without white space. -/
theorem strip_of_no_space {s : String} (h : ∀ c ∈ s.toList, isSpace c = false) : strip s = s := by
  have hdrop : ∀ l : List Char, (∀ c ∈ l, isSpace c = false) → l.dropWhile isSpace = l := by
    intro l hl
    cases l with
    | nil => rfl
    | cons c l => rw [List.dropWhile_cons_of_neg (Bool.eq_false_iff.mp (hl c List.mem_cons_self))]
  rw [strip, hdrop _ h, hdrop _ fun c hc => h c (List.mem_reverse.mp hc), List.reverse_reverse, String.ofList_toList]

/-- A digest is read as it is. -/
theorem retainedText_digest {name s : String} (h : IsHexDigest s) :
    retainedText name (some (.text s)) = .ok (.utf8 s) := by
  have hstrip : strip s = s := strip_of_no_space fun c hc => not_isSpace_of_hex (h.2 c hc)
  have hblank : ¬ (PyText.utf8 s).isBlank = true := by
    rw [PyText.isBlank, PyText.strip, hstrip]
    simpa [PyText.length] using h.1
  rw [PyValue.text, retainedText, if_neg hblank, PyText.strip, hstrip]

/-- The canonical form of the envelope. -/
theorem exists_canonical_envelope (e : McpRetainedEvidence py) : ∃ text, e.envelope.canonical = some text := by
  obtain ⟨text, htext, -⟩ := exists_canonical_payload e
  obtain ⟨hencodable, hshort, -⟩ := Json.render_eq_some e.payload htext
  exact Json.exists_render e.envelope ⟨trivial, hencodable, trivial, trivial, trivial⟩
    ⟨trivial, hshort, trivial, trivial, trivial⟩

/-- The envelope nests one more object. -/
theorem depth_envelope (e : McpRetainedEvidence py) :
    (PyValue.ofJson e.envelope).depth = (PyValue.ofJson e.payload).depth + 1 := by
  simp [McpRetainedEvidence.envelope, PyValue.ofJson, PyValue.ofJsonFields, PyValue.depth, PyValue.depthFields,
    Json.text]

variable {loneLoads : List ℕ → Except PyException Json}

/-- **The envelope is loaded** with its payload sorted. -/
theorem evidenceLoads_envelope {e : McpRetainedEvidence py} {text : List Char}
    (htext : e.envelope.canonical = some text) (hunique : e.payload.UniqueKeys)
    (hfinite : e.payload.Leaves (Json.IsRead js)) (hdepth : (PyValue.ofJson e.payload).depth < js.scannerFrames) :
    evidenceLoads js loneLoads (.utf8 (String.ofList text)) =
      .ok (.obj [("payload", e.payload.sortKeys), ("sha256", .text e.sha256)]) := by
  have hsorted : e.envelope.sortKeys = .obj [("payload", e.payload.sortKeys), ("sha256", .text e.sha256)] := rfl
  have hkeeps : evidenceHooks.KeepsObjects := fun pairs h => defaultHooks_keepsObjects pairs h
  rw [evidenceLoads, String.toList_ofList, ← hsorted]
  refine Json.loads_canonical hkeeps htext ?_ ?_ (depth_envelope e ▸ hdepth)
  · exact ⟨(by decide : ([.utf8 "payload", .utf8 "sha256"] : List PyText).Nodup), hunique, trivial, trivial⟩
  · exact ⟨trivial, Json.leaves_imp Json.IsRead.readsFloats _ hfinite, trivial, trivial, trivial⟩

/-- An envelope that is accepted. -/
theorem ofEnvelope_strict {envelope : PyDict} {e : McpRetainedEvidence py}
    (h : McpRetainedEvidence.ofEnvelope py js frames envelope = .ok e) : e.payload.Strict (AllowedKey py) ∧
      ∃ payload, envelope.getItem "payload" = .ok payload ∧ payload.depth ≤ frames := by
  rw [McpRetainedEvidence.ofEnvelope] at h
  split_ifs at h
  obtain ⟨payload, hpayload, h⟩ := except_bind_eq_ok.mp h
  obtain ⟨sha256, -, h⟩ := except_bind_eq_ok.mp h
  cases sha256 with
  | utf8 sha256 =>
    obtain ⟨hstrict, hdepth⟩ := evidence_make_eq_ok h
    exact ⟨hstrict, payload, hpayload, hdepth⟩
  | lone codes hcodes =>
    obtain ⟨_, -, h⟩ := except_bind_eq_ok.mp h
    obtain ⟨_, -, h⟩ := except_bind_eq_ok.mp h
    cases h

/-- An accepted evidence is strict. -/
theorem fromJson_strict {value : PyText} {e : McpRetainedEvidence py}
    (h : McpRetainedEvidence.fromJson py js frames loneLoads value = .ok e) : e.payload.Strict (AllowedKey py) := by
  rw [McpRetainedEvidence.fromJson] at h
  obtain ⟨envelope, -, h⟩ := except_bind_eq_ok.mp h
  split at h
  · exact (ofEnvelope_strict h).1
  · cases h

/-- The envelope of a strict payload and its hash is accepted. -/
theorem ofEnvelope_eq_ok {j : Json} {sha256 : String} (hhex : IsHexDigest sha256) (hj : j.Strict (AllowedKey py))
    (hhash : j.canonical.map py.sha256 = some sha256) (hframes : (PyValue.ofJson j).depth ≤ frames)
    (hencoder : (PyValue.ofJson j).depth ≤ js.encoderFrames) :
    McpRetainedEvidence.ofEnvelope py js frames
      (PyValue.ofJsonFields [("payload", j), ("sha256", .text sha256)]) = .ok ⟨j, sha256, hhash⟩ := by
  have hkeys : PyDict.hasKeys (PyValue.ofJsonFields [("payload", j), ("sha256", .text sha256)]) ["payload", "sha256"] =
      true := rfl
  have hsha : PyDict.get? (PyValue.ofJsonFields [("payload", j), ("sha256", .text sha256)]) "sha256" =
      some (.text sha256) := rfl
  have hpayload : PyDict.getItem (PyValue.ofJsonFields [("payload", j), ("sha256", .text sha256)]) "payload" =
      .ok (.ofJson j) := rfl
  rw [McpRetainedEvidence.ofEnvelope, if_neg (by rw [hkeys]; decide), hsha, retainedText_digest hhex, hpayload]
  exact evidence_make_ofJson hj hhash hframes hencoder

theorem fromJson_of_loads {value : PyText} {fields : List (PyText × Json)}
    (h : evidenceLoads js loneLoads value = .ok (.obj fields)) :
    McpRetainedEvidence.fromJson py js frames loneLoads value =
      McpRetainedEvidence.ofEnvelope py js (frames - 1) (PyValue.ofJsonFields fields) := by
  rw [McpRetainedEvidence.fromJson, h]
  rfl

/-- What is written of an evidence, unless it is nested too deeply. -/
theorem toJson_eq_ok {e : McpRetainedEvidence py} {text : List Char} (htext : e.envelope.canonical = some text)
    (hdepth : (PyValue.ofJson e.payload).depth < js.encoderFrames) :
    e.toJson js = .ok (.utf8 (String.ofList text)) := by
  rw [McpRetainedEvidence.toJson, if_neg (by rw [depth_envelope]; omega), htext]

/-- The payload nests fewer containers than `from_json` may nest calls, and `json` containers. -/
def McpRetainedEvidence.Nests (js : JsonPlatform) (frames : ℕ) (e : McpRetainedEvidence py) : Prop :=
  (PyValue.ofJson e.payload).depth < frames ∧ (PyValue.ofJson e.payload).depth < js.encoderFrames ∧
    (PyValue.ofJson e.payload).depth < js.scannerFrames

/-- **What is written is accepted**, unless it is nested too deeply. -/
theorem fromJson_toJson {e : McpRetainedEvidence py} (hhex : IsHexDigest e.sha256)
    (hstrict : e.payload.Strict (AllowedKey py)) (hfinite : e.payload.Leaves (Json.IsRead js))
    (hnests : e.Nests js frames) :
    ∃ text e', e.toJson js = .ok text ∧ McpRetainedEvidence.fromJson py js frames loneLoads text = .ok e' ∧
      e'.payload = e.payload.sortKeys ∧ e'.sha256 = e.sha256 := by
  obtain ⟨hframes, hencoder, hscanner⟩ := hnests
  obtain ⟨text, htext⟩ := exists_canonical_envelope e
  obtain ⟨c, hc, hsha⟩ := exists_canonical_payload e
  have hhash : e.payload.sortKeys.canonical.map py.sha256 = some e.sha256 := by
    rw [Json.canonical_sortKeys (Json.Strict.uniqueKeys _ hstrict) hc, Option.map_some, hsha]
  have hsorted := Json.depth_sortKeys e.payload
  refine ⟨.utf8 (String.ofList text), ⟨e.payload.sortKeys, e.sha256, hhash⟩, toJson_eq_ok htext hencoder, ?_, rfl, rfl⟩
  have hloads :=
    @evidenceLoads_envelope py js loneLoads e text htext (Json.Strict.uniqueKeys _ hstrict) hfinite hscanner
  rw [fromJson_of_loads hloads, ofEnvelope_eq_ok hhex (Json.strict_sortKeys _ hstrict) hhash (by omega) (by omega)]

end Envelope

/-- **Retained evidence is a sound format.** What is made, and not nested too deeply, is written and read back as the
same value, what is accepted is strict JSON without forbidden keys and hashed, and without collisions the hash
determines the payload. -/
theorem evidence_format (py : Platform) (js : JsonPlatform) (frames : ℕ) (loneLoads : List ℕ → Except PyException Json)
    (hhex : ∀ text, IsHexDigest (py.sha256 text)) :
    (∀ js' frames' payload sha256 e, McpRetainedEvidence.make py js' frames' payload sha256 = .ok e →
      e.Nests js frames → e.payload.Leaves (Json.IsFloat js) →
      ∃ text e', e.toJson js = .ok text ∧ McpRetainedEvidence.fromJson py js frames loneLoads text = .ok e' ∧
        e'.payload.sortKeys = e.payload.sortKeys ∧ e'.sha256 = e.sha256) ∧
    (∀ value e, McpRetainedEvidence.fromJson py js frames loneLoads value = .ok e →
      e.payload.Strict (AllowedKey py) ∧
        ∃ text, e.payload.canonical = some text ∧ e.sha256 = py.sha256 text) ∧
    (Function.Injective py.sha256 → ∀ value value' e e',
      McpRetainedEvidence.fromJson py js frames loneLoads value = .ok e →
        McpRetainedEvidence.fromJson py js frames loneLoads value' = .ok e' → e.sha256 = e'.sha256 →
          e.payload.sortKeys = e'.payload.sortKeys) := by
  refine ⟨fun js' frames' payload sha256 e hmake hnests hfloat => ?_, fun value e h => ?_,
    fun hinj value value' e e' h h' hsha => ?_⟩
  · obtain ⟨hstrict, -⟩ := evidence_make_eq_ok hmake
    obtain ⟨c, -, hc⟩ := exists_canonical_payload e
    obtain ⟨text, e', htext, hread, hpayload, hdigest⟩ :=
      @fromJson_toJson py js frames loneLoads e (hc ▸ hhex c) hstrict (Json.Strict.isRead _ hstrict hfloat) hnests
    exact ⟨text, e', htext, hread, by rw [hpayload, Json.sortKeys_sortKeys], hdigest⟩
  · obtain ⟨text, htext, hc⟩ := exists_canonical_payload e
    exact ⟨fromJson_strict h, text, htext, hc.symm⟩
  · obtain ⟨text, htext, hc⟩ := exists_canonical_payload e
    obtain ⟨text', htext', hc'⟩ := exists_canonical_payload e'
    obtain rfl : text = text' := hinj (hc.trans (hsha.trans hc'.symm))
    exact Json.canonical_inj htext htext' (Json.Strict.uniqueKeys _ (fromJson_strict h))
      (Json.Strict.uniqueKeys _ (fromJson_strict h'))

/-! ## A payload -/

/-- A platform whose digests tell all texts apart. -/
def Platform.hex : Platform := { Platform.sample with
  sha256 := fun text => String.ofList ('0' :: text.flatMap fun c => List.replicate c.toNat 'a' ++ ['0']) }

theorem Platform.hex_isHexDigest (text : List Char) : IsHexDigest (Platform.hex.sha256 text) := by
  refine ⟨fun h => ?_, fun c hc => ?_⟩
  · have hlist := congrArg String.toList h
    rw [hex, String.toList_ofList] at hlist
    cases hlist
  · rw [hex, String.toList_ofList] at hc
    simp only [List.mem_cons, List.mem_flatMap, List.mem_append, List.mem_replicate, List.not_mem_nil, or_false] at hc
    rcases hc with rfl | ⟨-, -, ⟨-, rfl⟩ | rfl⟩ <;> decide

theorem replicate_marked_inj {m n : ℕ} {s t : List Char}
    (h : List.replicate m 'a' ++ '0' :: s = List.replicate n 'a' ++ '0' :: t) : m = n ∧ s = t := by
  induction m generalizing n with
  | zero =>
    cases n with
    | zero => exact ⟨rfl, (List.cons.inj h).2⟩
    | succ n => exact absurd (List.cons.inj h).1 (by decide)
  | succ m ih =>
    cases n with
    | zero => exact absurd (List.cons.inj h).1 (by decide)
    | succ n =>
      obtain ⟨hmn, hst⟩ := ih (List.cons.inj h).2
      exact ⟨congrArg _ hmn, hst⟩

theorem Platform.hex_injective : Function.Injective Platform.hex.sha256 := by
  intro s t h
  replace h := (List.cons.inj (String.ofList_injective h)).2
  induction s generalizing t with
  | nil =>
    cases t with
    | nil => rfl
    | cons d t => simp at h
  | cons c s ih =>
    cases t with
    | nil => simp at h
    | cons d t =>
      rw [List.flatMap_cons, List.flatMap_cons, List.append_assoc, List.append_assoc] at h
      obtain ⟨hcd, hst⟩ := replicate_marked_inj h
      rw [Char.toNat_inj.mp hcd, ih hst]

/-- A payload with an array in an object. -/
def samplePayload : Json := .obj [("tools", .arr [.int 1, .null])]

def samplePayloadText : List Char := "\x7b\"tools\":[1,null]\x7d".toList

theorem samplePayload_strict : samplePayload.Strict (AllowedKey .hex) :=
  ⟨List.nodup_singleton _, ⟨(by decide : forbiddenKey .hex "tools" = false), trivial, trivial, trivial⟩, trivial⟩

theorem samplePayload_hash : samplePayload.canonical.map Platform.hex.sha256 =
    some (Platform.hex.sha256 samplePayloadText) := by
  have htext : samplePayload.canonical = some samplePayloadText := by decide +kernel
  rw [htext, Option.map_some]

theorem evidence_format_sample : Function.Injective Platform.hex.sha256 ∧ ∃ e text e',
    McpRetainedEvidence.make .hex .sample 900 (PyValue.ofJson samplePayload)
        (Platform.hex.sha256 samplePayloadText) = .ok e ∧
      e.toJson .sample = .ok text ∧
      McpRetainedEvidence.fromJson .hex .sample 900 (fun _ => .error recursionError) text = .ok e' ∧
      e'.payload.sortKeys = samplePayload.sortKeys ∧ e'.sha256 = Platform.hex.sha256 samplePayloadText := by
  have hmake : McpRetainedEvidence.make .hex .sample 900 _ _ = .ok _ :=
    evidence_make_ofJson samplePayload_strict samplePayload_hash (by decide) (by decide)
  obtain ⟨text, e', htext, hread, hpayload, hsha⟩ :=
    (evidence_format .hex .sample 900 (fun _ => .error recursionError) Platform.hex_isHexDigest).1 _ _ _ _ _ hmake
      ⟨by decide, by decide, by decide⟩ ⟨trivial, ⟨trivial, trivial, trivial⟩, trivial⟩
  exact ⟨Platform.hex_injective, _, text, e', hmake, htext, hread, hpayload, hsha⟩

/-! ## Nested objects -/

/-- So many objects around an empty one. -/
def nestedPayload : ℕ → Json
  | 0 => .obj []
  | n + 1 => .obj [("a", nestedPayload n)]

theorem nestedPayload_depth (n : ℕ) : (PyValue.ofJson (nestedPayload n)).depth = n + 1 := by
  induction n with
  | zero => rfl
  | succ n ih => simp [nestedPayload, PyValue.ofJson, PyValue.ofJsonFields, PyValue.depth, PyValue.depthFields, ih]

theorem nestedPayload_strict (n : ℕ) : (nestedPayload n).Strict (AllowedKey .hex) := by
  induction n with
  | zero => exact ⟨List.nodup_nil, trivial⟩
  | succ n ih => exact ⟨List.nodup_singleton _, ⟨(by decide : forbiddenKey .hex "a" = false), ih⟩, trivial⟩

theorem nestedPayload_leaves {P : Json → Prop} (hkey : P (.text "a")) (n : ℕ) : (nestedPayload n).Leaves P := by
  induction n with
  | zero => trivial
  | succ n ih => exact ⟨hkey, ih, trivial⟩

/-- A platform on which `json` nests more containers than calls can be. -/
def JsonPlatform.deep : JsonPlatform := { JsonPlatform.sample with encoderFrames := 10000, scannerFrames := 10000 }

/-- **Evidence that is made and written, but not accepted**: `from_json` is one more call around those that check the
989 nested objects. -/
theorem evidence_nested : ∃ sha256 e text,
    McpRetainedEvidence.make .hex .deep 989 (PyValue.ofJson (nestedPayload 988)) sha256 = .ok e ∧
      e.toJson .deep = .ok text ∧
      ∀ e', McpRetainedEvidence.fromJson .hex .deep 989 (fun _ => .error recursionError) text ≠ .ok e' := by
  have hdepth : (PyValue.ofJson (nestedPayload 988)).depth = 989 := nestedPayload_depth 988
  obtain ⟨c, hc⟩ := Json.exists_render (nestedPayload 988) (nestedPayload_leaves trivial 988)
    (nestedPayload_leaves trivial 988)
  have hhash : (nestedPayload 988).canonical.map Platform.hex.sha256 = some (Platform.hex.sha256 c) := by
    rw [Json.canonical, hc, Option.map_some]
  have hmake : McpRetainedEvidence.make .hex .deep 989 _ _ = .ok ⟨nestedPayload 988, _, hhash⟩ :=
    evidence_make_ofJson (nestedPayload_strict 988) hhash hdepth.le (hdepth.le.trans (by decide))
  obtain ⟨text, htext⟩ := exists_canonical_envelope ⟨nestedPayload 988, _, hhash⟩
  refine ⟨_, _, _, hmake, toJson_eq_ok htext (hdepth.le.trans_lt (by decide)), fun e' h => ?_⟩
  have hread := @evidenceLoads_envelope .hex .deep (fun _ => .error recursionError) _ text htext
    (Json.Strict.uniqueKeys _ (nestedPayload_strict 988)) (nestedPayload_leaves trivial 988)
    (hdepth.le.trans_lt (by decide))
  rw [fromJson_of_loads hread] at h
  obtain ⟨-, payload, hpayload, hle⟩ := ofEnvelope_strict h
  obtain rfl : PyValue.ofJson (nestedPayload 988).sortKeys = payload := Except.ok.inj hpayload
  rw [Json.depth_sortKeys, hdepth] at hle
  exact absurd hle (by decide)

end Rpr
