import PathwayRuntime.Model.Evidence
import PathwayRuntime.Model.Payload

/-!
# The `event_json` column

* `EvidenceEvent.toDict`: the dict of an event, written by `json.dumps` and read by `json.loads`.
* `verifyEventDict`, `verifyChainDicts`: `verify_event` and `verify_chain` on dicts.
* `verifyChainDicts_readBack`: they accept the events read back when `verifyChain` accepts the events.
-/

set_option autoImplicit false

namespace Rpr

/-- `to_dict`. -/
def EvidenceEvent.toDict (e : EvidenceEvent) : Json :=
  .obj [("pathway_id", .text e.pathwayId), ("event_type", .text e.eventType),
    ("actor", .text e.actor), ("payload", e.payload), ("occurred_at", .text e.occurredAt),
    ("previous_hash", .optText e.previousHash), ("event_hash", .text e.eventHash)]

/-- An event written to its column and read back. -/
def JsonCodec.readBack (codec : JsonCodec) (e : EvidenceEvent) : Json :=
  codec.loads (codec.dumps e.toDict)

/-- `value == text`, for a decoded value and a text or `None`. -/
def Json.isOptText : Json → Option String → Bool
  | .null, none => true
  | .str (.utf8 s), some t => s = t
  | _, _ => false

section Verify

variable (py : Platform)

/-- `str(value[key])`. -/
def Json.textItem (event : Json) (key : String) : Except PyError String :=
  (event.getItem key).map py.str

/-- `str(value[key])`, in a text: a lone surrogate is met when it is encoded. -/
def Json.strItem (event : Json) (key : String) : Except PyError PyText :=
  (event.getItem key).map fun value =>
    match value with
    | .str s => s
    | value => .utf8 (py.str value)

/-- `_canonical_payload`, the text of the payload given. -/
def eventText (pathwayId eventType actor : PyText) (payload : List Char) (occurredAt : PyText)
    (previousHash : Json) : Option (List Char) := do
  let before ← Json.renderFields [("pathway_id", .str pathwayId), ("event_type", .str eventType),
    ("actor", .str actor)]
  let after ← Json.renderFields [("occurred_at", .str occurredAt), ("previous_hash", previousHash)]
  some (Json.renderObject (before ++ ⟨"payload", payload⟩ :: after))

/-- `verify_event` on a dict. -/
def verifyEventDict (event : Json) : Except PyError Bool := do
  let pathwayId ← event.strItem py "pathway_id"
  let eventType ← event.strItem py "event_type"
  let actor ← event.strItem py "actor"
  let items ← (← event.getItem "payload").asItems
  let occurredAt ← event.strItem py "occurred_at"
  let payload ← Json.dumpsItems items
  match payload.bind fun payload => eventText pathwayId eventType actor payload occurredAt
      ((event.get? "previous_hash").getD .null) with
  | none => .error .encodeError
  | some canonical =>
    .ok (((event.get? "event_hash").getD .null).isOptText (some (py.sha256 canonical)))

/-- The loop of `verify_chain` on dicts. -/
def verifyChainDictsFrom (i : ℕ) (previous : Option String) :
    List Json → Except PyError (Bool × Option ℕ × Option String)
  | [] => .ok (true, none, none)
  | event :: events => do
    if !((event.get? "previous_hash").getD .null).isOptText previous then
      .ok (false, some i, some "previous_hash_mismatch")
    else if !(← verifyEventDict py event) then .ok (false, some i, some "event_hash_mismatch")
    else verifyChainDictsFrom (i + 1) (some (← event.textItem py "event_hash")) events

/-- `verify_chain` on dicts. -/
def verifyChainDicts (events : List Json) : Except PyError (Bool × Option ℕ × Option String) :=
  verifyChainDictsFrom py 0 none events

end Verify

/-! ## Events read back -/

/-- The payload is an object without repeated keys, at any depth. -/
def Json.IsPayload (j : Json) : Prop := j.UniqueKeys ∧ ∃ fields, j = .obj fields

theorem Json.uniqueKeys_optText (s : Option String) : (Json.optText s).UniqueKeys := by
  cases s <;> trivial

theorem Json.sortKeys_optText (s : Option String) : (Json.optText s).sortKeys = Json.optText s := by
  cases s <;> rfl

theorem Json.isOptText_optText (s t : Option String) : (Json.optText s).isOptText t = decide (s = t) := by
  cases s <;> cases t <;> simp [Json.optText, Json.isOptText, Json.text]

section ReadBack

variable {py : Platform} {e : EvidenceEvent}

theorem EvidenceEvent.toDict_uniqueKeys (h : e.payload.IsPayload) : e.toDict.UniqueKeys := by
  refine ⟨?_, trivial, trivial, trivial, h.1, trivial, Json.uniqueKeys_optText _, trivial, trivial⟩
  simp

/-- The members of an event in sorted order. -/
theorem EvidenceEvent.sortKeys_toDict (e : EvidenceEvent) : e.toDict.sortKeys =
    .obj [("actor", .text e.actor), ("event_hash", .text e.eventHash), ("event_type", .text e.eventType),
      ("occurred_at", .text e.occurredAt), ("pathway_id", .text e.pathwayId),
      ("payload", e.payload.sortKeys), ("previous_hash", .optText e.previousHash)] := by
  simp only [toDict, Json.sortKeys, Json.sortFields, Json.sortKeys_optText, Json.text]
  simp [List.insertionSort, List.orderedInsert, PyText.le]

/-- What can be hashed has a payload that can be written. -/
theorem canonicalPayload_payload {pid ty actor t : String} {prev : Option String} {payload : Json}
    {c : List Char} (h : canonicalPayload pid ty actor payload t prev = some c) :
    ∃ c', payload.canonical = some c' :=
  Option.isSome_iff_exists.mp (canonicalPayload_isSome.mp (by rw [h]; rfl))

/-- The event text of texts is the canonical payload. -/
theorem eventText_utf8 {pid ty actor t : String} {prev : Option String} {payload : Json} {c' : List Char}
    (h : payload.canonical = some c') : eventText (.utf8 pid) (.utf8 ty) (.utf8 actor) c' (.utf8 t) (.optText prev) =
      canonicalPayload pid ty actor payload t prev := by
  rw [Json.canonical] at h
  cases prev <;>
    simp [eventText, canonicalPayload, Json.canonical, Json.render, Json.renderFields, Json.quote, Json.text,
      Json.optText, h]

/-- An event whose payload can be written can be written. -/
theorem EvidenceEvent.toDict_canonical {c : List Char} (h : e.payload.canonical = some c) :
    (Json.canonical e.toDict).isSome := by
  simp only [Json.canonical] at h
  cases hprev : e.previousHash <;>
    simp [Json.canonical, toDict, Json.render, Json.renderFields, Json.text, Json.optText, Json.quote,
      h, hprev]

/-- An event is read back with its members in sorted order. -/
theorem JsonCodec.readBack_eq (codec : JsonCodec) (hp : e.payload.IsPayload) {c : List Char}
    (hc : e.payload.canonical = some c) : codec.readBack e = e.toDict.sortKeys :=
  codec.loads_dumps _ (EvidenceEvent.toDict_uniqueKeys hp) (EvidenceEvent.toDict_canonical hc)

theorem verifyEvent_eq_true : verifyEvent py e = true ↔ ∃ c, canonicalPayload e.pathwayId e.eventType
    e.actor e.payload e.occurredAt e.previousHash = some c ∧ py.sha256 c = e.eventHash := by
  simp [verifyEvent]

/-- **An event that carries its own hash is accepted when it is read back.** -/
theorem verifyEventDict_readBack (codec : JsonCodec) (hp : e.payload.IsPayload)
    (hv : verifyEvent py e = true) : verifyEventDict py (codec.readBack e) = .ok true := by
  obtain ⟨c, hc, hhash⟩ := verifyEvent_eq_true.mp hv
  obtain ⟨c', hc'⟩ := canonicalPayload_payload hc
  have hsorted : e.payload.sortKeys.canonical = some c' := Json.canonical_sortKeys hp.1 hc'
  have hitems : ∃ fields, e.payload.sortKeys = .obj fields := by
    obtain ⟨fields, hfields⟩ := hp.2
    exact ⟨_, by rw [hfields, Json.sortKeys]⟩
  obtain ⟨fields, hfields⟩ := hitems
  have htext : eventText e.pathwayId e.eventType e.actor c' e.occurredAt (.optText e.previousHash) = some c :=
    (eventText_utf8 hc').trans hc
  rw [hfields] at hsorted
  rw [codec.readBack_eq hp hc', e.sortKeys_toDict, hfields]
  simp only [verifyEventDict, Json.strItem, Json.getItem, Json.get?, List.lookup_cons, PyText.beq_utf8,
    String.reduceBEq, Except.map, Json.text, bind, Except.bind, Json.asItems, Json.dumpsItems,
    Json.textFields_asItems, hsorted, Option.bind_some, Option.getD_some, htext]
  simp only [← hhash]
  simp [Json.isOptText]

/-- The chain of events read back is judged like the chain of the events. -/
theorem verifyChainDictsFrom_readBack (codec : JsonCodec) {i : ℕ} {previous : Option String}
    {events : List EvidenceEvent} (hp : ∀ e ∈ events, e.payload.IsPayload)
    (hv : ∀ e ∈ events, verifyEvent py e = true) :
    verifyChainDictsFrom py i previous (events.map codec.readBack) =
      .ok (verifyChainFrom py i previous events) := by
  induction events generalizing i previous with
  | nil => rfl
  | cons e events ih =>
    obtain ⟨he, hrest⟩ := List.forall_mem_cons.mp hp
    obtain ⟨hve, hvrest⟩ := List.forall_mem_cons.mp hv
    obtain ⟨c, hc, -⟩ := verifyEvent_eq_true.mp hve
    obtain ⟨c', hc'⟩ := canonicalPayload_payload hc
    have hread : codec.readBack e = e.toDict.sortKeys := codec.readBack_eq he hc'
    have hprev : (codec.readBack e).get? "previous_hash" = some (.optText e.previousHash) := by
      simp [hread, e.sortKeys_toDict, Json.get?, List.lookup_cons]
    have hhash : (codec.readBack e).textItem py "event_hash" = .ok e.eventHash := by
      simp [hread, e.sortKeys_toDict, Json.textItem, Json.getItem, Json.get?, List.lookup_cons, Except.map,
        py.str_text]
    have htail := @ih (i + 1) (some e.eventHash) hrest hvrest
    rw [List.map_cons, verifyChainDictsFrom, verifyChainFrom, hprev, Option.getD_some,
      Json.isOptText_optText, verifyEventDict_readBack codec he hve, hhash]
    by_cases h : e.previousHash = previous <;> simp [h, hve, htail, bind, Except.bind]

theorem verifyChainDicts_readBack (codec : JsonCodec) {events : List EvidenceEvent}
    (hp : ∀ e ∈ events, e.payload.IsPayload) (hv : ∀ e ∈ events, verifyEvent py e = true) :
    verifyChainDicts py (events.map codec.readBack) = .ok (verifyChain py events) :=
  verifyChainDictsFrom_readBack codec hp hv

end ReadBack

/-! ## Redacted payloads -/

section Redact

variable {py : Platform} {p : RedactionPolicy}

/-- What is left of a computation that spends one item first. -/
theorem RedactionPolicy.spend_bind {α : Type} {depth b : ℤ} {f : ℤ → Except PyError α} {a : α}
    (h : (p.spend depth b >>= f) = .ok a) : ∃ b₁, f b₁ = .ok a := by
  cases hb : p.spend depth b with
  | error e =>
    rw [hb] at h
    cases h
  | ok b₁ => exact ⟨b₁, by rwa [hb] at h⟩

mutual
/-- What redaction stores has no repeated keys. -/
theorem redactValue_uniqueKeys (v : PyValue) {depth b b' : ℤ} {j : Json}
    (h : RedactionPolicy.redactValue py p depth v b = .ok (j, b')) : j.UniqueKeys := by
  match v with
  | .none | .bool _ | .int _ | .float _ | .object _ _ =>
    rw [RedactionPolicy.redactValue] at h
    obtain ⟨b₁, h⟩ := RedactionPolicy.spend_bind h
    cases h
    trivial
  | .str s =>
    rw [RedactionPolicy.redactValue] at h
    obtain ⟨b₁, h⟩ := RedactionPolicy.spend_bind h
    split_ifs at h
    cases h
    trivial
  | .dict fields =>
    rw [RedactionPolicy.redactValue] at h
    obtain ⟨b₁, h⟩ := RedactionPolicy.spend_bind h
    cases hf : RedactionPolicy.redactFields py p (depth + 1) fields [] b₁ with
    | error e =>
      rw [hf] at h
      cases h
    | ok r =>
      rw [hf] at h
      cases h
      exact @redactFields_uniqueKeys fields _ _ _ [] _ List.nodup_nil trivial hf
  | .list items | .tuple items =>
    rw [RedactionPolicy.redactValue] at h
    obtain ⟨b₁, h⟩ := RedactionPolicy.spend_bind h
    cases hi : RedactionPolicy.redactItems py p (depth + 1) items b₁ with
    | error e =>
      rw [hi] at h
      cases h
    | ok r =>
      rw [hi] at h
      cases h
      exact redactItems_uniqueKeys items hi

theorem redactItems_uniqueKeys (items : List PyValue) {depth b b' : ℤ} {js : List Json}
    (h : RedactionPolicy.redactItems py p depth items b = .ok (js, b')) : Json.UniqueItems js := by
  match items with
  | [] =>
    rw [RedactionPolicy.redactItems] at h
    cases h
    trivial
  | item :: items =>
    rw [RedactionPolicy.redactItems] at h
    cases hj : RedactionPolicy.redactValue py p depth item b with
    | error e =>
      rw [hj] at h
      cases h
    | ok r =>
      cases hjs : RedactionPolicy.redactItems py p depth items r.2 with
      | error e =>
        simp only [hj, hjs, bind, Except.bind] at h
        cases h
      | ok rs =>
        simp only [hj, hjs, bind, Except.bind] at h
        cases h
        exact ⟨redactValue_uniqueKeys item hj, redactItems_uniqueKeys items hjs⟩

theorem redactFields_uniqueKeys (fields : List (PyKey × PyValue)) {depth b b' : ℤ}
    {output out : List (PyText × Json)} (hnd : (output.map Prod.fst).Nodup)
    (hu : Json.UniqueFields output)
    (h : RedactionPolicy.redactFields py p depth fields output b = .ok (out, b')) :
    (out.map Prod.fst).Nodup ∧ Json.UniqueFields out := by
  match fields with
  | [] =>
    rw [RedactionPolicy.redactFields] at h
    cases h
    exact ⟨hnd, hu⟩
  | (key, item) :: fields =>
    rw [RedactionPolicy.redactFields] at h
    split_ifs at h with hs
    · obtain ⟨hnd', hu'⟩ := uniqueFields_setField (v := .str p.replacement) hnd hu trivial
      exact redactFields_uniqueKeys fields hnd' hu' h
    · cases hj : RedactionPolicy.redactValue py p depth item b with
      | error e =>
        rw [hj] at h
        cases h
      | ok r =>
        rw [hj] at h
        obtain ⟨hnd', hu'⟩ := uniqueFields_setField hnd hu (redactValue_uniqueKeys item hj)
        exact redactFields_uniqueKeys fields hnd' hu' h
end

/-- **A redacted payload is an object without repeated keys, at any depth.** -/
theorem RedactionPolicy.redact_isPayload {fields : PyDict} {j : Json}
    (h : p.redact py (.dict fields) = .ok j) : j.IsPayload := by
  obtain ⟨out, b, b', rfl, hout⟩ := redact_dict h
  exact ⟨@redactFields_uniqueKeys _ _ fields _ _ _ [] _ List.nodup_nil trivial hout, out, rfl⟩

end Redact

end Rpr
