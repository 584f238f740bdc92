import PathwayRuntime.Stdio.Json

/-!
# The codec round-trips

* `feed_lines`: feeding lines that can be decoded.
* `decodeLine_encode`: an encoded message is decoded again.
* **`round_trip`**: encoded messages, one after another, are decoded in order.
-/

set_option autoImplicit false

namespace Rpr

namespace McpStdioLineCodec

variable {J : JsonModule}

/-- Every line of the buffer that can be decoded is. -/
theorem drain_of_forall₂ {maxMessageBytes : ℕ} {lines : List Bytes} {ms : List JsonObject}
    (h : List.Forall₂ (fun line m => decodeLine J maxMessageBytes line = .ok m) lines ms) (tail : Bytes) :
    drain J maxMessageBytes lines tail = .ok ms := by
  induction h with
  | nil => rfl
  | cons hd _ ih => rw [drain, hd, ih]

/-- **Feeding lines**: each of them is a message. -/
theorem feed_lines {codec : McpStdioLineCodec} (hpoisoned : codec.poisoned = false) (hbuffer : codec.buffer = [])
    {lines : List Bytes} {ms : List JsonObject} (hlf : ∀ l ∈ lines, lf ∉ l)
    (h : List.Forall₂ (fun line m => decodeLine J codec.maxMessageBytes line = .ok m) lines ms) :
    codec.feed J (Framing.join lf lines []) = (.ok ms, codec) := by
  obtain ⟨maxMessageBytes, buffer, poisoned, positive⟩ := codec
  dsimp only at hpoisoned hbuffer h
  subst hpoisoned hbuffer
  rw [feed, if_neg Bool.false_ne_true]
  by_cases hnil : Framing.join lf lines [] = []
  · -- Every line has a byte.
    rw [if_pos hnil]
    cases lines with
    | nil => rw [List.forall₂_nil_left_iff.mp h]
    | cons l ls => simp at hnil
  rw [if_neg hnil, List.nil_append]
  dsimp only
  have hcut : Framing.cut lf (Framing.join lf lines []) = (lines, []) := by
    rw [Framing.cut_join hlf, Framing.cut_nil, List.append_nil]
  have hmem : ¬ (lf ∉ Framing.join lf lines [] ∧
      (Framing.join lf lines []).length > maxMessageBytes) := by
    rintro ⟨hmem, -⟩
    cases lines with
    | nil => exact hnil rfl
    | cons l ls => simp at hmem
  rw [if_neg hmem, hcut]
  dsimp only
  rw [drain_of_forall₂ h []]
  simp

variable {py : JsonPlatform}

/-- What is needed of a message: its keys are texts, its values are Python's, and the decoder may nest as
deep. -/
structure Portable (py : JsonPlatform) (message : PyDict) : Prop where
  textKeys : (PyValue.dict message).Everywhere PyValue.TextKeys
  proper : (PyValue.dict message).Everywhere (PyValue.Proper py)
  depth : (PyValue.dict message).depth ≤ py.scannerFrames

/-- **An encoded message** is a line of its own that is decoded again. -/
theorem decodeLine_encode {codec : McpStdioLineCodec} {message : PyDict} {line : Bytes}
    (hmessage : Portable py message) (h : (codec.encode py.json (.dict message)).1 = .ok line) :
    ∃ payload m, line = payload ++ [lf] ∧ lf ∉ payload ∧ payload.length ≤ codec.maxMessageBytes ∧
      decodeLine py.json codec.maxMessageBytes payload = .ok m ∧
      PyValue.ofJsonFields m = PyValue.listedFields message := by
  obtain ⟨-, -, fields, text, heq, hdumps, hlength, hline⟩ :=
    encode_eq_ok (Prod.ext h rfl)
  obtain rfl := PyValue.dict.inj heq
  obtain ⟨m, hloads, hm⟩ := loads_dumps hooks_keepsObjects hdumps hmessage.depth hmessage.textKeys hmessage.proper
  refine ⟨encodeUtf8 text, m, hline, fun hlf => json_oneLine hdumps (lf_mem_encodeUtf8.mp hlf), hlength, ?_, hm⟩
  have hne : encodeUtf8 text ≠ [] := by
    obtain ⟨tail, htail⟩ := json_first hdumps
    rw [htail]
    exact List.cons_ne_nil _ _
  exact decodeLine_eq_ok.mpr ⟨hne, hlength, json_noBom hdumps, text, decodeUtf8_encodeUtf8 text, hloads⟩

/-- Encoded messages are lines with decoded messages. -/
theorem lines_of_encode {codec : McpStdioLineCodec} {messages : List PyDict} {lines : List Bytes}
    (hmessages : ∀ message ∈ messages, Portable py message)
    (h : List.Forall₂ (fun message line => (codec.encode py.json (.dict message)).1 = .ok line) messages lines) :
    ∃ payloads ms, lines = payloads.map (· ++ [lf]) ∧
      (∀ l ∈ payloads, lf ∉ l ∧ l.length ≤ codec.maxMessageBytes) ∧
      List.Forall₂ (fun l m => decodeLine py.json codec.maxMessageBytes l = .ok m) payloads ms ∧
      ms.map PyValue.ofJsonFields = messages.map PyValue.listedFields := by
  induction h with
  | nil => exact ⟨[], [], rfl, by simp, .nil, rfl⟩
  | cons hencode _ ih =>
    obtain ⟨hfirst, hrest⟩ := List.forall_mem_cons.mp hmessages
    obtain ⟨payloads, ms, rfl, hlines, hdecode, hms⟩ := ih hrest
    obtain ⟨payload, m, rfl, hnot, hlength, hd, hm⟩ := decodeLine_encode hfirst hencode
    exact ⟨payload :: payloads, m :: ms, rfl, List.forall_mem_cons.mpr ⟨⟨hnot, hlength⟩, hlines⟩,
      .cons hd hdecode, by rw [List.map_cons, List.map_cons, hm, hms]⟩

/-- **The codec round-trips.** Encoded messages are lines within the limit, each ended by its only line
feed; and a healthy codec with this limit that buffers nothing, fed with all of them at once, delivers the
messages in order, with lists for their tuples, and buffers nothing. -/
theorem round_trip (py : JsonPlatform) (codec : McpStdioLineCodec) (messages : List PyDict)
    (lines : List Bytes) (hmessages : ∀ message ∈ messages, Portable py message)
    (h : List.Forall₂ (fun message line => (codec.encode py.json (.dict message)).1 = .ok line) messages lines) :
    (∀ line ∈ lines, ∃ payload, line = payload ++ [lf] ∧ lf ∉ payload ∧
        payload.length ≤ codec.maxMessageBytes) ∧
      ∀ reader : McpStdioLineCodec, reader.maxMessageBytes = codec.maxMessageBytes →
        reader.poisoned = false → reader.buffer = [] → ∃ decoded,
          reader.feed py.json lines.flatten = (.ok decoded, reader) ∧
            decoded.map PyValue.ofJsonFields = messages.map PyValue.listedFields := by
  obtain ⟨payloads, ms, rfl, hlines, hdecode, hms⟩ := lines_of_encode hmessages h
  constructor
  · intro line hline
    obtain ⟨payload, hpayload, rfl⟩ := List.mem_map.mp hline
    exact ⟨payload, rfl, hlines payload hpayload⟩
  · intro reader hlimit hpoisoned hbuffer
    have hjoin : (payloads.map (· ++ [lf])).flatten = Framing.join lf payloads [] := by
      rw [Framing.join, List.append_nil, List.flatMap_def]
    rw [← hlimit] at hdecode
    exact ⟨ms, hjoin ▸ feed_lines hpoisoned hbuffer (fun l hl => (hlines l hl).1) hdecode, hms⟩

/-- A tuple with a float and a control character, and an empty object. -/
def twoMessages : List PyDict :=
  [[(.str "é", .tuple [.float (.finite ⟨true, 15, -1, by decide⟩), .text "\n"])], []]

def twoLines : List Bytes := ["\x7b\"é\":[-1.5,\"\\n\"]\x7d".toUTF8.toList ++ [lf], "\x7b\x7d".toUTF8.toList ++ [lf]]

/-- They are encoded as these lines, and read back. -/
theorem round_trip_two :
    List.Forall₂ (fun message line => ((fresh 64 (by decide)).encode JsonPlatform.sample.json (.dict message)).1 =
      .ok line) twoMessages twoLines ∧
    ∃ decoded,
      (fresh 64 (by decide)).feed JsonPlatform.sample.json twoLines.flatten = (.ok decoded, fresh 64 (by decide)) ∧
        decoded.map PyValue.ofJsonFields =
          [[(.str "é", .list [.float (.finite ⟨true, 15, -1, by decide⟩), .text "\n"])], []] := by
  have hencode : ∀ i : Fin 2, ((fresh 64 (by decide)).encode JsonPlatform.sample.json
      (.dict (twoMessages.get i))).1 = .ok (twoLines.get i) := by
    decide +kernel
  have hportable : ∀ message ∈ twoMessages, Portable .sample message := by
    refine List.forall_mem_cons.mpr ⟨⟨?_, ?_, by decide⟩, List.forall_mem_singleton.mpr ⟨?_, ?_, by decide⟩⟩
    all_goals simp [PyValue.Everywhere, PyValue.EverywhereItems, PyValue.EverywhereFields, PyValue.TextKeys,
      PyValue.Proper, PyValue.text, JsonPlatform.sample]
  have hlines : List.Forall₂ (fun message line =>
      ((fresh 64 (by decide)).encode JsonPlatform.sample.json (.dict message)).1 = .ok line) twoMessages twoLines :=
    .cons (hencode 0) (.cons (hencode 1) .nil)
  exact ⟨hlines, (round_trip .sample (fresh 64 (by decide)) twoMessages twoLines hportable hlines).2
    (fresh 64 (by decide)) rfl rfl rfl⟩

end McpStdioLineCodec

end Rpr
