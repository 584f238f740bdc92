import Mathlib.Data.List.Nodup
import Mathlib.Tactic.SplitIfs
import PathwayRuntime.Model.Definition
import PathwayRuntime.Python.Items

/-!
# Redacted payloads and chained evidence events

* `RedactionPolicy.redact`: the stored form of a payload, with its budget of items.
* `EvidenceEvent`, `sealEvent`, `verifyChain`.
* `redact_text`: a text under a key the policy does not hide is stored as it is.
* `verifyChain_valid`: the chain is valid exactly when every event carries its own hash and the
  hash of the event before it.
-/

set_option autoImplicit false

namespace Rpr

/-! ## Redaction -/

structure RedactionPolicy where
  sensitiveKeys : List PyText
  replacement : PyText
  maxDepth : ℤ
  maxItems : ℤ
  maxStringLength : ℤ

def defaultSensitiveKeys : List PyText :=
  ["authorization", "cookie", "password", "secret", "token", "access_token", "refresh_token",
    "api_key", "private_key", "client_secret"]

/-- `RedactionPolicy()`. -/
def RedactionPolicy.default : RedactionPolicy where
  sensitiveKeys := defaultSensitiveKeys
  replacement := "[REDACTED]"
  maxDepth := 12
  maxItems := 1000
  maxStringLength := 16384

/-- `str(raw_key)`. -/
def PyKey.form : PyKey → PyText
  | str s => s
  | other form => form

namespace RedactionPolicy

variable (py : Platform) (p : RedactionPolicy)

/-- The values under such a key are replaced. -/
def sensitive (key : PyText) : Bool := py.casefold key ∈ p.sensitiveKeys

/-- Take one item from the budget. -/
def spend (depth budget : ℤ) : Except PyError ℤ :=
  if depth > p.maxDepth then
    .error (.evidenceLimitError "evidence payload exceeds maximum depth")
  else if budget - 1 < 0 then
    .error (.evidenceLimitError "evidence payload exceeds maximum item count")
  else .ok (budget - 1)

mutual
/-- `_redact`, with the budget that is left. -/
def redactValue (depth : ℤ) : PyValue → ℤ → Except PyError (Json × ℤ)
  | .str s, budget => do
    let budget ← p.spend depth budget
    if (s.length : ℤ) > p.maxStringLength then
      .error (.evidenceLimitError "evidence string exceeds maximum length")
    else .ok (.str s, budget)
  | .dict fields, budget => do
    let budget ← p.spend depth budget
    let (output, budget) ← redactFields (depth + 1) fields [] budget
    .ok (.obj output, budget)
  | .list items, budget => do
    let budget ← p.spend depth budget
    let (output, budget) ← redactItems (depth + 1) items budget
    .ok (.arr output, budget)
  | .tuple items, budget => do
    let budget ← p.spend depth budget
    let (output, budget) ← redactItems (depth + 1) items budget
    .ok (.arr output, budget)
  | .none, budget => do .ok (.null, ← p.spend depth budget)
  | .bool b, budget => do .ok (.bool b, ← p.spend depth budget)
  | .int i, budget => do .ok (.int i, ← p.spend depth budget)
  | .float x, budget => do .ok (.float x, ← p.spend depth budget)
  | .object _ form, budget => do .ok (.str form, ← p.spend depth budget)

def redactItems (depth : ℤ) : List PyValue → ℤ → Except PyError (List Json × ℤ)
  | [], budget => .ok ([], budget)
  | item :: items, budget => do
    let (j, budget) ← redactValue depth item budget
    let (js, budget) ← redactItems depth items budget
    .ok (j :: js, budget)

def redactFields (depth : ℤ) : List (PyKey × PyValue) → List (PyText × Json) → ℤ →
    Except PyError (List (PyText × Json) × ℤ)
  | [], output, budget => .ok (output, budget)
  | (rawKey, item) :: fields, output, budget =>
    if sensitive py p rawKey.form then
      redactFields depth fields (setField rawKey.form (.str p.replacement) output) budget
    else do
      let (j, budget) ← redactValue depth item budget
      redactFields depth fields (setField rawKey.form j output) budget
end

def redact (value : PyValue) : Except PyError Json :=
  (redactValue py p 0 value p.maxItems).map Prod.fst

end RedactionPolicy

/-! ### What redaction keeps -/

namespace RedactionPolicy

variable {py : Platform} {p : RedactionPolicy}

/-- The field after a key and the fields before it. -/
theorem redactFields_cons {depth : ℤ} {rawKey : PyKey} {item : PyValue}
    {fields : List (PyKey × PyValue)} {output out : List (PyText × Json)} {b b' : ℤ}
    (h : redactFields py p depth ((rawKey, item) :: fields) output b = .ok (out, b')) :
    ∃ j b₁, redactFields py p depth fields (setField rawKey.form j output) b₁ = .ok (out, b') ∧
      (p.sensitive py rawKey.form = false → redactValue py p depth item b = .ok (j, b₁)) := by
  rw [redactFields] at h
  split_ifs at h with hs
  · exact ⟨_, _, h, fun hf => absurd hs (by simp [hf])⟩
  · cases hv : redactValue py p depth item b with
    | error e => rw [hv] at h; cases h
    | ok r =>
      rw [hv] at h
      exact ⟨r.1, r.2, h, fun _ => rfl⟩

/-- Keys that do not occur are left alone. -/
theorem lookup_redactFields {depth : ℤ} {fields : List (PyKey × PyValue)} {key : PyText}
    (hkey : ∀ f ∈ fields, f.1.form ≠ key) {output out : List (PyText × Json)} {b b' : ℤ}
    (h : redactFields py p depth fields output b = .ok (out, b')) :
    out.lookup key = output.lookup key := by
  induction fields generalizing output b with
  | nil =>
    rw [redactFields] at h
    cases h
    rfl
  | cons f fields ih =>
    obtain ⟨j, b₁, hrest, -⟩ := redactFields_cons h
    rw [ih (fun g hg => hkey g (List.mem_cons_of_mem _ hg)) hrest]
    exact lookup_setField_ne (Ne.symm (hkey f List.mem_cons_self)) _ _

/-- The value stored under a key that occurs once and is not hidden. -/
theorem lookup_redactFields_mem {depth : ℤ} {fields : List (String × PyValue)} {key : String}
    {v : PyValue} (hv : fields.lookup key = some v) (hnd : (fields.map Prod.fst).Nodup)
    (hs : p.sensitive py key = false) {output out : List (PyText × Json)} {b b' : ℤ}
    (h : redactFields py p depth (fields.map fun f => (.str (.utf8 f.1), f.2)) output b =
      .ok (out, b')) :
    ∃ j b₁ b₂, redactValue py p depth v b₁ = .ok (j, b₂) ∧ out.lookup (.utf8 key) = some j := by
  induction fields generalizing output b with
  | nil => cases hv
  | cons f fields ih =>
    obtain ⟨k, w⟩ := f
    obtain ⟨j, b₁, hrest, hj⟩ := redactFields_cons h
    obtain ⟨hk, hnd⟩ := List.nodup_cons.mp hnd
    by_cases hkey : key = k
    · subst hkey
      obtain rfl : w = v := by simpa [List.lookup_cons] using hv
      refine ⟨j, _, _, hj hs, ?_⟩
      rw [lookup_redactFields ?_ hrest]
      · exact lookup_setField_self _ _ _
      · intro g hg hgk
        obtain ⟨f', hf', rfl⟩ := List.mem_map.mp hg
        exact hk (List.mem_map.mpr ⟨f', hf', PyText.utf8.inj hgk⟩)
    · refine ih ?_ hnd hrest
      have : (key == k) = false := by simpa using hkey
      simpa [List.lookup_cons, this] using hv

theorem redact_dict {fields : PyDict} {j : Json} (h : p.redact py (.dict fields) = .ok j) :
    ∃ out b b', j = .obj out ∧ redactFields py p 1 fields [] b = .ok (out, b') := by
  unfold redact at h
  rw [redactValue] at h
  cases hb : p.spend 0 p.maxItems with
  | error e => rw [hb] at h; cases h
  | ok b =>
    cases hf : redactFields py p 1 fields [] b with
    | error e =>
      rw [hb] at h
      simp only [bind, Except.bind, Int.zero_add, hf] at h
      cases h
    | ok r =>
      rw [hb] at h
      simp only [bind, Except.bind, Int.zero_add, hf, Except.map, Except.ok.injEq] at h
      exact ⟨r.1, b, r.2, h.symm, hf⟩

theorem redactValue_str {depth b b' : ℤ} {s : PyText} {j : Json}
    (h : redactValue py p depth (.str s) b = .ok (j, b')) : j = .str s := by
  rw [redactValue] at h
  cases hb : p.spend depth b with
  | error e => rw [hb] at h; cases h
  | ok b₁ =>
    rw [hb] at h
    simp only [bind, Except.bind] at h
    split_ifs at h
    cases h
    rfl

/-- **A text under a key that is not hidden is stored as it is.** -/
theorem redact_text {fields : List (String × PyValue)} {key s : String} {j : Json}
    (h : p.redact py (.ofFields fields) = .ok j) (hs : p.sensitive py key = false)
    (hf : fields.lookup key = some (.text s)) (hnd : (fields.map Prod.fst).Nodup) :
    j.get? key = some (.text s) := by
  obtain ⟨out, b, b', rfl, hout⟩ := redact_dict h
  obtain ⟨v, b₁, b₂, hv, hl⟩ := lookup_redactFields_mem hf hnd hs hout
  rw [Json.get?, hl, redactValue_str hv]
  rfl

/-- A key that does not occur in the payload does not occur in what is stored. -/
theorem redact_absent {fields : List (String × PyValue)} {key : String} {j : Json}
    (h : p.redact py (.ofFields fields) = .ok j) (hk : key ∉ fields.map Prod.fst) :
    j.get? key = none := by
  obtain ⟨out, b, b', rfl, hout⟩ := redact_dict h
  rw [Json.get?, lookup_redactFields ?_ hout]
  · rfl
  · intro f hf hkey
    obtain ⟨g, hg, rfl⟩ := List.mem_map.mp hf
    exact hk (List.mem_map.mpr ⟨g, hg, PyText.utf8.inj hkey⟩)

/-- A mapping that is not empty is stored as an object that is not empty. -/
theorem redactValue_dict_ne_nil {depth b b' : ℤ} {fields : PyDict} (hne : fields ≠ []) {j : Json}
    (h : redactValue py p depth (.dict fields) b = .ok (j, b')) : ∃ f out, j = .obj (f :: out) := by
  have hset : ∀ (key : PyText) (v : Json) out, setField key v out ≠ [] := by
    intro key v out
    cases out with
    | nil => simp [setField]
    | cons f out => unfold setField; split_ifs <;> simp
  have hkeep : ∀ (fields : PyDict) (output out : List (PyText × Json)) (b b' d : ℤ), output ≠ [] →
      redactFields py p d fields output b = .ok (out, b') → out ≠ [] := by
    intro fields
    induction fields with
    | nil =>
      intro output out b b' d ho h
      rw [redactFields] at h
      cases h
      exact ho
    | cons f fields ih =>
      intro output out b b' d _ h
      obtain ⟨j, b₁, hrest, -⟩ := redactFields_cons h
      exact ih _ _ _ _ _ (hset _ _ _) hrest
  rw [redactValue] at h
  cases hb : p.spend depth b with
  | error e => rw [hb] at h; cases h
  | ok b₁ =>
    cases hf : redactFields py p (depth + 1) fields [] b₁ with
    | error e =>
      rw [hb] at h
      simp only [bind, Except.bind, hf] at h
      cases h
    | ok r =>
      rw [hb] at h
      simp only [bind, Except.bind, hf, Except.ok.injEq, Prod.mk.injEq] at h
      obtain ⟨f, fields, rfl⟩ := List.exists_cons_of_ne_nil hne
      obtain ⟨v, b₂, hrest, -⟩ := redactFields_cons hf
      obtain ⟨g, out, hout⟩ := List.exists_cons_of_ne_nil (hkeep _ _ _ _ _ _ (hset _ _ _) hrest)
      exact ⟨g, out, by rw [← h.1, hout]⟩

theorem redact_dict_field {fields : List (String × PyValue)} {key : String} {items : PyDict}
    {j : Json} (h : p.redact py (.ofFields fields) = .ok j) (hs : p.sensitive py key = false)
    (hf : fields.lookup key = some (.dict items)) (hnd : (fields.map Prod.fst).Nodup)
    (hne : items ≠ []) : ∃ f out, j.get? key = some (.obj (f :: out)) := by
  obtain ⟨out, b, b', rfl, hout⟩ := redact_dict h
  obtain ⟨v, b₁, b₂, hv, hl⟩ := lookup_redactFields_mem hf hnd hs hout
  obtain ⟨f, rest, rfl⟩ := redactValue_dict_ne_nil hne hv
  exact ⟨f, rest, hl⟩

end RedactionPolicy

/-- The payload keys the runtime reads back. -/
def bindingKeys : List String :=
  ["from", "to", "attempt_id", "next_attempt_id", "prior_attempt_id"]

/-- The policy does not hide the keys the runtime reads back. -/
def RedactionPolicy.KeepsBindings (py : Platform) (p : RedactionPolicy) : Prop :=
  ∀ key ∈ bindingKeys, p.sensitive py (.utf8 key) = false

/-- The keys that name the attempt `execution_started` binds. -/
def startKeys : List String := ["to", "attempt_id"]

/-- The policy does not hide them. -/
def RedactionPolicy.KeepsStarts (py : Platform) (p : RedactionPolicy) : Prop :=
  ∀ key ∈ startKeys, p.sensitive py (.utf8 key) = false

theorem RedactionPolicy.KeepsBindings.starts {py : Platform} {p : RedactionPolicy} (h : p.KeepsBindings py) :
    p.KeepsStarts py :=
  have hsub : startKeys ⊆ bindingKeys := by decide
  fun key hkey => h key (hsub hkey)

/-- Lower-case keys outside the default set are not hidden by the default policy. -/
theorem RedactionPolicy.default_sensitive (py : Platform) {key : String}
    (hlow : (key.toList.all fun c => 'a' ≤ c ∧ c ≤ 'z' ∨ c = '_') = true)
    (hkey : PyText.utf8 key ∉ defaultSensitiveKeys) : default.sensitive py key = false := by
  unfold sensitive
  rw [py.casefold_lower key fun c hc => of_decide_eq_true (List.all_eq_true.mp hlow c hc)]
  exact decide_eq_false hkey

theorem RedactionPolicy.default_keepsBindings (py : Platform) : default.KeepsBindings py := by
  intro key hkey
  refine default_sensitive py ?_ ?_
  · revert key
    decide
  · revert key
    decide

/-! ## Events -/

structure EvidenceEvent where
  pathwayId : String
  eventType : String
  actor : String
  payload : Json
  occurredAt : String
  previousHash : Option String
  eventHash : String

/-- What the hash of an event covers. -/
def canonicalPayload (pathwayId eventType actor : String) (payload : Json) (occurredAt : String)
    (previousHash : Option String) : Option (List Char) :=
  Json.canonical (.obj [("pathway_id", .text pathwayId), ("event_type", .text eventType),
    ("actor", .text actor), ("payload", payload), ("occurred_at", .text occurredAt),
    ("previous_hash", .optText previousHash)])

/-- An event can be hashed exactly when its payload can be written. -/
theorem canonicalPayload_isSome {pathwayId eventType actor occurredAt : String} {payload : Json}
    {previousHash : Option String} : (canonicalPayload pathwayId eventType actor payload occurredAt
      previousHash).isSome ↔ payload.canonical.isSome := by
  cases previousHash <;> cases hp : payload.render <;>
    simp [canonicalPayload, Json.canonical, Json.render, Json.renderFields, Json.text, Json.optText,
      Json.quote, hp]

/-- The event over an already redacted payload. -/
def sealEvent (py : Platform) (pathwayId eventType actor : String) (payload : Json)
    (occurredAt : String) (previousHash : Option String) : Except PyError EvidenceEvent :=
  match canonicalPayload pathwayId eventType actor payload occurredAt previousHash with
  | none => .error .encodeError
  | some canonical =>
    .ok { pathwayId, eventType, actor, payload, occurredAt, previousHash
          eventHash := py.sha256 canonical }

/-- `verify_event`; `none` stands for an encoding error. -/
def verifyEvent (py : Platform) (e : EvidenceEvent) : Bool :=
  (canonicalPayload e.pathwayId e.eventType e.actor e.payload e.occurredAt e.previousHash).map
    py.sha256 = some e.eventHash

/-- The loop of `verify_chain`, from index `i` and the hash of the event before it. -/
def verifyChainFrom (py : Platform) (i : ℕ) (previous : Option String) :
    List EvidenceEvent → Bool × Option ℕ × Option String
  | [] => (true, none, none)
  | e :: events =>
    if e.previousHash ≠ previous then (false, some i, some "previous_hash_mismatch")
    else if ¬ verifyEvent py e then (false, some i, some "event_hash_mismatch")
    else verifyChainFrom py (i + 1) (some e.eventHash) events

/-- `verify_chain` on events in the order they were stored. -/
def verifyChain (py : Platform) (events : List EvidenceEvent) : Bool × Option ℕ × Option String :=
  verifyChainFrom py 0 none events

/-- The hash of the newest event of a log. -/
def headHash (log : List EvidenceEvent) : Option String := log.head?.map EvidenceEvent.eventHash

/-- Every event of a log, newest first, names the hash of the event before it. -/
def Linked : List EvidenceEvent → Prop
  | [] => True
  | e :: log => e.previousHash = headHash log ∧ Linked log

instance decidableLinked : DecidablePred Linked
  | [] => .isTrue trivial
  | _ :: log => @instDecidableAnd _ _ _ (decidableLinked log)

/-- The fields of a sealed event. -/
theorem sealEvent_ok {py : Platform} {pid ty actor : String} {payload : Json} {t : String}
    {prev : Option String} {e : EvidenceEvent} (h : sealEvent py pid ty actor payload t prev = .ok e) :
    e.pathwayId = pid ∧ e.eventType = ty ∧ e.actor = actor ∧ e.payload = payload ∧
      e.previousHash = prev ∧ verifyEvent py e = true := by
  unfold sealEvent at h
  cases hc : canonicalPayload pid ty actor payload t prev with
  | none => rw [hc] at h; cases h
  | some c =>
    rw [hc] at h
    cases h
    exact ⟨rfl, rfl, rfl, rfl, rfl, by simp [verifyEvent, hc]⟩

theorem verifyChainFrom_valid {py : Platform} {i : ℕ} {previous : Option String}
    {events : List EvidenceEvent} : (verifyChainFrom py i previous events).1 = true ↔
      (∀ e ∈ events, verifyEvent py e = true) ∧
      ∀ pre e post, events = pre ++ e :: post →
        e.previousHash = (pre.getLast?.map EvidenceEvent.eventHash).or previous := by
  induction events generalizing i previous with
  | nil => simp [verifyChainFrom]
  | cons e events ih =>
    rw [verifyChainFrom]
    split_ifs with hp hv
    · exact ⟨fun h => h.elim, fun h => absurd (h.2 [] e events rfl) hp⟩
    · rw [ih]
      rw [not_not] at hp
      refine and_congr ⟨fun h => List.forall_mem_cons.mpr ⟨hv, h⟩, fun h => (List.forall_mem_cons.mp h).2⟩
        ⟨fun h pre x post heq => ?_, fun h pre x post heq => ?_⟩
      · cases pre with
        | nil =>
          obtain ⟨rfl, rfl⟩ := List.cons.inj heq
          exact hp
        | cons y pre =>
          obtain ⟨rfl, hrest⟩ := List.cons.inj heq
          rw [h pre x post hrest]
          cases pre <;> simp [List.getLast?_cons]
      · rw [h (e :: pre) x post (by rw [heq]; rfl)]
        cases pre <;> simp [List.getLast?_cons]
    · exact ⟨fun h => h.elim, fun h => absurd (h.1 e List.mem_cons_self) hv⟩

theorem linked_iff {log : List EvidenceEvent} : Linked log ↔
    ∀ newer e older, log = newer ++ e :: older → e.previousHash = headHash older := by
  induction log with
  | nil => simp [Linked]
  | cons e log ih =>
    rw [Linked, ih]
    refine ⟨fun h newer x older heq => ?_, fun h => ⟨h [] e log rfl, fun newer x older heq => ?_⟩⟩
    · cases newer with
      | nil =>
        obtain ⟨rfl, rfl⟩ := List.cons.inj heq
        exact h.1
      | cons y newer => exact h.2 newer x older (List.cons.inj heq).2
    · exact h (e :: newer) x older (by rw [heq]; rfl)

/-- **The chain is valid exactly when every event carries its own hash and the hash of the event
before it.** The log is kept newest first, `verify_chain` reads it oldest first. -/
theorem verifyChain_valid {py : Platform} {log : List EvidenceEvent} :
    (verifyChain py log.reverse).1 = true ↔ (∀ e ∈ log, verifyEvent py e = true) ∧ Linked log := by
  rw [verifyChain, verifyChainFrom_valid, linked_iff]
  refine and_congr (by simp) ⟨fun h newer e older heq => ?_, fun h pre e post heq => ?_⟩
  · rw [h older.reverse e newer.reverse (by rw [heq]; simp)]
    simp [headHash]
  · have hlog : log = post.reverse ++ e :: pre.reverse := by
      rw [← List.reverse_reverse log, heq]
      simp
    rw [h _ _ _ hlog]
    simp [headHash]

end Rpr
