import PathwayRuntime.Chained.Commit
import PathwayRuntime.Ledger.Fingerprint
import PathwayRuntime.Model.Column
import PathwayRuntime.Model.Mapped
import PathwayRuntime.Python.Canonical

/-!
# A head commits to its chain

* `SameEvent`: what two events with one hash agree in.
* `eventText_inj`: the text of an event determines it.
* **`chain_committed`**: two chains that are accepted and end in one hash agree at every position.
-/

set_option autoImplicit false

namespace Rpr

open Json

/-! ## The text of an event -/

/-- The members of an event, in the order they are written. -/
def eventFields (pathwayId eventType actor : PyText) (payload : Json) (occurredAt : PyText) (previousHash : Json) :
    Json :=
  .obj [("actor", .str actor), ("event_type", .str eventType), ("occurred_at", .str occurredAt),
    ("pathway_id", .str pathwayId), ("payload", payload), ("previous_hash", previousHash)]

theorem reads_eventText {pathwayId eventType actor occurredAt : PyText} {payload c : List Char}
    {j previousHash : Json} (h : eventText pathwayId eventType actor payload occurredAt previousHash = some c)
    (hj : Reads payload j) (hu : previousHash.UniqueKeys) :
    Reads c (eventFields pathwayId eventType actor j occurredAt previousHash.sortKeys) := by
  rw [eventText] at h
  obtain ⟨before, hbefore, h⟩ := Option.bind_eq_some_iff.mp h
  obtain ⟨after, hafter, h⟩ := Option.bind_eq_some_iff.mp h
  obtain rfl := Option.some.inj h
  have hread := reads_renderObject (List.rel_append
    (memberReads_renderFields hbefore ⟨trivial, trivial, trivial, trivial⟩)
    (.cons (a := ⟨"payload", payload⟩) (b := (.utf8 "payload", j)) ⟨rfl, hj⟩
      (memberReads_renderFields hafter ⟨trivial, hu, trivial⟩)))
  simpa [eventFields, sortFields, sortKeys, List.insertionSort, List.orderedInsert, PyText.le] using hread

/-- `event.get("previous_hash")`. -/
def previousHash (event : Json) : Json := (event.get? "previous_hash").getD .null

/-- `event.get("event_hash")`. -/
def eventHash (event : Json) : Json := (event.get? "event_hash").getD .null

/-- What is written for `dict(event["payload"])`. -/
def writtenPayload (event : Json) : Option Json :=
  ((event.getItem "payload").bind asItems).toOption.bind writtenItems

theorem isOptText_eq_true {j : Json} {s : Option String} (h : j.isOptText s = true) : j = .optText s := by
  unfold isOptText at h
  split at h
  · rfl
  · exact congrArg Json.text (of_decide_eq_true h)
  · cases h

section Accepted

variable {py : Platform}

/-- What is known of an event that is accepted. -/
structure Accepted (py : Platform) (event : Json) (pathwayId eventType actor occurredAt : PyText) (payload : Json)
    (c : List Char) : Prop where
  pathwayId_eq : event.strItem py "pathway_id" = .ok pathwayId
  eventType_eq : event.strItem py "event_type" = .ok eventType
  actor_eq : event.strItem py "actor" = .ok actor
  occurredAt_eq : event.strItem py "occurred_at" = .ok occurredAt
  payload_eq : writtenPayload event = some payload
  hash_eq : eventHash event = .text (py.sha256 c)
  reads : Reads c (eventFields pathwayId eventType actor payload occurredAt (previousHash event).sortKeys)

theorem getD_uniqueKeys {j : Json} {key : PyText} (hu : j.UniqueKeys) : ((j.get? key).getD .null).UniqueKeys := by
  cases h : j.get? key with
  | none => trivial
  | some v => exact hu.get? h

theorem getItem_eq_ok {j v : Json} {key : String} : j.getItem key = .ok v ↔ j.get? key = some v := by
  rw [getItem]
  cases j.get? key with
  | none => exact ⟨fun h => (by cases h), fun h => (by cases h)⟩
  | some w => exact ⟨fun h => congrArg some (Except.ok.inj h), fun h => congrArg Except.ok (Option.some.inj h)⟩

theorem accepted_of_verifyEventDict {event : Json} (h : verifyEventDict py event = .ok true)
    (hu : event.UniqueKeys) : ∃ pathwayId eventType actor occurredAt payload c,
      Accepted py event pathwayId eventType actor occurredAt payload c := by
  obtain ⟨pathwayId, hid, h⟩ := except_bind_eq_ok.mp h
  obtain ⟨eventType, hty, h⟩ := except_bind_eq_ok.mp h
  obtain ⟨actor, hactor, h⟩ := except_bind_eq_ok.mp h
  obtain ⟨value, hvalue, h⟩ := except_bind_eq_ok.mp h
  obtain ⟨items, hitems, h⟩ := except_bind_eq_ok.mp h
  obtain ⟨occurredAt, ht, h⟩ := except_bind_eq_ok.mp h
  obtain ⟨text, htext, h⟩ := except_bind_eq_ok.mp h
  split at h
  · cases h
  · rename_i c hc
    obtain ⟨payload, hpayload, hc⟩ := Option.bind_eq_some_iff.mp hc
    rw [hpayload] at htext
    obtain ⟨j, hj, hread⟩ := reads_dumpsItems htext
      (asItems_uniqueKeys hitems (hu.get? (getItem_eq_ok.mp hvalue)))
    exact ⟨pathwayId, eventType, actor, occurredAt, j, c, {
      pathwayId_eq := hid
      eventType_eq := hty
      actor_eq := hactor
      occurredAt_eq := ht
      payload_eq := by simp only [writtenPayload, hvalue, Except.bind, hitems, Except.toOption, Option.bind_some, hj]
      hash_eq := isOptText_eq_true (Except.ok.inj h)
      reads := reads_eventText hc hread (getD_uniqueKeys hu) }⟩

end Accepted

/-! ## Chains -/

/-- What two events agree in: all that is hashed, after `str` and `dict`. -/
structure SameEvent (py : Platform) (event event' : Json) : Prop where
  pathwayId : event.strItem py "pathway_id" = event'.strItem py "pathway_id"
  eventType : event.strItem py "event_type" = event'.strItem py "event_type"
  actor : event.strItem py "actor" = event'.strItem py "actor"
  payload : writtenPayload event = writtenPayload event'
  occurredAt : event.strItem py "occurred_at" = event'.strItem py "occurred_at"
  previous : previousHash event = previousHash event'

/-- The hash an event names, when it names one. -/
def linkedHash (event : Json) : Option Json :=
  match previousHash event with
  | .null => none
  | hash => some hash

section Chain

variable {py : Platform}

/-- The events of an accepted chain name each other's hashes. -/
theorem linkedFrom_of_verifyChainDictsFrom {i : ℕ} {previous : Option String} {events : List Json}
    (h : verifyChainDictsFrom py i previous events = .ok (true, none, none)) (hu : ∀ event ∈ events, event.UniqueKeys) :
    Chained.LinkedFrom linkedHash eventHash (previous.map Json.text) events ∧
      ∀ event ∈ events, verifyEventDict py event = .ok true ∧ ∃ s, previousHash event = .optText s := by
  induction events generalizing i previous with
  | nil => exact ⟨trivial, fun _ hmem => (List.not_mem_nil hmem).elim⟩
  | cons event events ih =>
    obtain ⟨hunique, hrest⟩ := List.forall_mem_cons.mp hu
    rw [verifyChainDictsFrom] at h
    split_ifs at h with hprevious
    · cases h
    have hprevious : previousHash event = .optText previous :=
      isOptText_eq_true (by rwa [Bool.not_eq_true', Bool.not_eq_false] at hprevious)
    obtain ⟨accepted, hevent, h⟩ := except_bind_eq_ok.mp h
    cases accepted with
    | false => cases h
    | true =>
      obtain ⟨hash, hhash, h⟩ := except_bind_eq_ok.mp h
      obtain ⟨hlink, hall⟩ := ih h hrest
      obtain ⟨_, _, _, _, _, c, haccepted⟩ := accepted_of_verifyEventDict hevent hunique
      -- The hash is a text, so `str` leaves it as it is.
      have htext : eventHash event = .text hash := by
        have hvalue := haccepted.hash_eq
        rw [textItem, getItem] at hhash
        rw [eventHash] at hvalue ⊢
        cases hget : event.get? "event_hash" with
        | none =>
          rw [hget] at hhash
          cases hhash
        | some value =>
          rw [hget] at hhash hvalue
          obtain rfl := hvalue
          obtain rfl := Except.ok.inj hhash
          rw [Option.getD_some, py.str_text]
      refine ⟨⟨?_, ?_⟩, List.forall_mem_cons.mpr ⟨⟨hevent, previous, hprevious⟩, hall⟩⟩
      · rw [linkedHash, hprevious]
        cases previous <;> rfl
      · rwa [htext]

/-- Accepted events with one hash agree. -/
theorem sameEvent_of_hash (hsha : Function.Injective py.sha256) {event event' : Json}
    (h : verifyEventDict py event = .ok true) (h' : verifyEventDict py event' = .ok true)
    (hu : event.UniqueKeys) (hu' : event'.UniqueKeys) (hprevious : ∃ s, previousHash event = .optText s)
    (hprevious' : ∃ s, previousHash event' = .optText s) (hhash : eventHash event = eventHash event') :
    SameEvent py event event' := by
  obtain ⟨pathwayId, eventType, actor, occurredAt, payload, c, ha⟩ := accepted_of_verifyEventDict h hu
  obtain ⟨pathwayId', eventType', actor', occurredAt', payload', c', ha'⟩ := accepted_of_verifyEventDict h' hu'
  obtain ⟨s, hs⟩ := hprevious
  obtain ⟨s', hs'⟩ := hprevious'
  obtain rfl : c = c' := by
    rw [ha.hash_eq, ha'.hash_eq] at hhash
    exact hsha (PyText.utf8.inj (Json.str.inj hhash))
  have hfields := ha.reads.unique ha'.reads
  rw [hs, hs', sortKeys_optText, sortKeys_optText] at hfields
  simp only [eventFields, Json.obj.injEq, List.cons.injEq, Prod.mk.injEq, Json.str.injEq, true_and, and_true] at hfields
  obtain ⟨rfl, rfl, rfl, rfl, rfl, hs₀⟩ := hfields
  exact {
    pathwayId := ha.pathwayId_eq.trans ha'.pathwayId_eq.symm
    eventType := ha.eventType_eq.trans ha'.eventType_eq.symm
    actor := ha.actor_eq.trans ha'.actor_eq.symm
    payload := ha.payload_eq.trans ha'.payload_eq.symm
    occurredAt := ha.occurredAt_eq.trans ha'.occurredAt_eq.symm
    previous := hs.trans (hs₀.trans hs'.symm) }

/-- **The evidence chain is tamper-evident**: two accepted chains whose last events carry one hash have the same
length and agree at every position, in the payload as far as it is written. -/
theorem chain_committed (hsha : Function.Injective py.sha256) {events events' : List Json}
    (hu : ∀ event ∈ events, event.UniqueKeys) (hu' : ∀ event ∈ events', event.UniqueKeys)
    (hne : events ≠ []) (hne' : events' ≠ []) (h : verifyChainDicts py events = .ok (true, none, none))
    (h' : verifyChainDicts py events' = .ok (true, none, none))
    (hlast : (events.getLast hne).get? "event_hash" = (events'.getLast hne').get? "event_hash") :
    events.length = events'.length ∧ List.Forall₂ (SameEvent py) events events' := by
  obtain ⟨hlink, hall⟩ := linkedFrom_of_verifyChainDictsFrom h hu
  obtain ⟨hlink', hall'⟩ := linkedFrom_of_verifyChainDictsFrom h' hu'
  have hsame : List.Forall₂ (SameEvent py) events events' := by
    refine Chained.committed hlink hlink' (fun event hmem event' hmem' hhash => ?_) (fun event event' hsame => ?_) ?_
    · exact sameEvent_of_hash hsha (hall event hmem).1 (hall' event' hmem').1 (hu event hmem) (hu' event' hmem')
        (hall event hmem).2 (hall' event' hmem').2 hhash
    · rw [linkedHash, linkedHash, hsame.previous]
    · rw [Chained.lastHash, Chained.lastHash, List.getLast?_eq_some_getLast hne, List.getLast?_eq_some_getLast hne',
        Option.map_some, Option.map_some, eventHash, eventHash, hlast]
  exact ⟨hsame.length_eq, hsame⟩

end Chain

/-! ## Keys that are no texts -/

/-- What both texts begin with. -/
def chainedFields : String :=
  "\x7b\"actor\":\"a\",\"event_type\":\"t\",\"occurred_at\":\"o\",\"pathway_id\":\"p\","

/-- The hash of a first event whose payload has the one member `1`, and that of an event without a payload after it. -/
def firstHash : String := "239deb77d65282c4b1cabbdc844020c18b403de6c4efab85d5eceeeafe57eca1"
def nextHash : String := "b2a2224fc9604e09ad9028d9cc5e30d9b7a32cd592fe190e619c1542983b300d"

/-- A platform with these digests. -/
def chainedPlatform : Platform := .withDigests [
  ((chainedFields ++ "\"payload\":\x7b\"1\":\"x\"\x7d,\"previous_hash\":null\x7d").toList, firstHash),
  ((chainedFields ++ "\"payload\":\x7b\x7d,\"previous_hash\":\"" ++ firstHash ++ "\"\x7d").toList, nextHash)]

theorem chainedPlatform_sha256 : Function.Injective chainedPlatform.sha256 :=
  Platform.withDigests_injective (by simp [firstHash, nextHash]) fun p hp => by
    simp only [List.mem_cons, List.not_mem_nil, or_false] at hp
    rcases hp with rfl | rfl <;> decide

/-- An event with the hash of the first one. -/
def firstEvent (payload : Json) : Json :=
  .obj [("pathway_id", .text "p"), ("event_type", .text "t"), ("actor", .text "a"), ("payload", payload),
    ("occurred_at", .text "o"), ("event_hash", .text firstHash)]

/-- Two payloads with one text: `dict` makes a key of `1` that is no text, and `json.dumps` writes it as one. -/
def pairedEvent : Json := firstEvent (.arr [.arr [.int 1, .text "x"]])
def namedEvent : Json := firstEvent (.obj [("1", .text "x")])

/-- An event after either of them. -/
def nextEvent : Json :=
  .obj [("pathway_id", .text "p"), ("event_type", .text "t"), ("actor", .text "a"), ("payload", .obj []),
    ("occurred_at", .text "o"), ("previous_hash", .text firstHash), ("event_hash", .text nextHash)]

theorem uniqueKeys_chain {payload : Json} (h : payload.UniqueKeys) :
    ∀ event ∈ [firstEvent payload, nextEvent], event.UniqueKeys := by
  refine List.forall_mem_cons.mpr ⟨⟨by simp, trivial, trivial, trivial, h, trivial, trivial, trivial⟩, ?_⟩
  refine List.forall_mem_singleton.mpr ⟨by simp, trivial, trivial, trivial, ?_, trivial, trivial, trivial, trivial⟩
  exact ⟨by simp, trivial⟩

theorem verifyChainDicts_pairedEvent :
    verifyChainDicts chainedPlatform [pairedEvent, nextEvent] = .ok (true, none, none) := by
  decide +kernel

theorem verifyChainDicts_namedEvent :
    verifyChainDicts chainedPlatform [namedEvent, nextEvent] = .ok (true, none, none) := by
  decide +kernel

/-- Both chains end in one event, and so their first events are the same. -/
theorem chain_committed_paired :
    List.Forall₂ (SameEvent chainedPlatform) [pairedEvent, nextEvent] [namedEvent, nextEvent] := by
  refine (chain_committed chainedPlatform_sha256 (uniqueKeys_chain ?_) (uniqueKeys_chain ?_)
    (List.cons_ne_nil _ _) (List.cons_ne_nil _ _) verifyChainDicts_pairedEvent verifyChainDicts_namedEvent rfl).2
  · exact ⟨⟨trivial, trivial, trivial⟩, trivial⟩
  · exact ⟨by decide, trivial, trivial⟩

/-- **What `dict` makes of the payload is not committed to**: both chains are accepted and end in one event, but
the key of the first payload is a number in the one and a text in the other. -/
theorem dict_not_committed :
    verifyChainDicts chainedPlatform [pairedEvent, nextEvent] = .ok (true, none, none) ∧
      verifyChainDicts chainedPlatform [namedEvent, nextEvent] = .ok (true, none, none) ∧
      (pairedEvent.getItem "payload").bind asItems = .ok [(.int 1, .text "x")] ∧
      (namedEvent.getItem "payload").bind asItems = .ok [(.text "1", .text "x")] ∧
      sameKey (.int 1) (.text "1") = false :=
  ⟨verifyChainDicts_pairedEvent, verifyChainDicts_namedEvent, rfl, rfl, rfl⟩

end Rpr
