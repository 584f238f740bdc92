import PathwayRuntime.Model.Stdio

/-!
# Decoding does not depend on chunking

`json.loads` is assumed to raise nothing but `ValueError`s.

* `decode`: the message of a line, as a reader of lines sees it.
* `feed_spec`, `feedAll_spec`: the codec is that reader.
* `poisoned_rejects`: a poisoned codec stays so and refuses every operation.
* **`chunking`**: two ways of cutting one stream into chunks lead two new codecs to the same end.
-/

set_option autoImplicit false

namespace Rpr

/-- `json.loads` returns or raises a `ValueError`. -/
def JsonModule.RaisesValueError (J : JsonModule) : Prop :=
  ∀ text e, J.loads text = .error e → e.isA "ValueError" = true

namespace McpStdioLineCodec

variable {J : JsonModule} {codec : McpStdioLineCodec}

/-- The message of a line, if it has one. -/
def decode (J : JsonModule) (maxMessageBytes : ℕ) (line : Bytes) : Option JsonObject :=
  (decodeLine J maxMessageBytes line).toOption

/-- A line with a message fits the limit. -/
theorem length_le_of_decode {maxMessageBytes : ℕ} {line : Bytes} {m : JsonObject}
    (h : decode J maxMessageBytes line = some m) : line.length ≤ maxMessageBytes := by
  rw [decode] at h
  cases hd : decodeLine J maxMessageBytes line with
  | error e =>
    rw [hd] at h
    cases h
  | ok m' => exact (decodeLine_eq_ok.mp hd).2.1

/-- A line without a message is a framing failure. -/
theorem decodeLine_error (hJ : J.RaisesValueError) {maxMessageBytes : ℕ} {line : Bytes} {e : LineError}
    (h : decodeLine J maxMessageBytes line = .error e) : ∃ reason, e = .framing reason := by
  rw [decodeLine] at h
  split_ifs at h
  · exact ⟨_, (Except.error.inj h).symm⟩
  · exact ⟨_, (Except.error.inj h).symm⟩
  · exact ⟨_, (Except.error.inj h).symm⟩
  cases hd : decodeUtf8 line with
  | none =>
    simp only [hd] at h
    exact ⟨_, (Except.error.inj h).symm⟩
  | some text =>
    cases hl : J.loads text with
    | error x =>
      have hx : x.isAny ["JSONDecodeError", "ValueError"] = true := by
        simp [PyException.isAny, hJ text x hl]
      simp only [hd, hl, if_pos hx] at h
      exact ⟨_, (Except.error.inj h).symm⟩
    | ok j =>
      cases j with
      | obj fields =>
        simp only [hd, hl] at h
        cases h
      | _ =>
        simp only [hd, hl] at h
        exact ⟨_, (Except.error.inj h).symm⟩

/-- The loop of `feed` decodes every line, or fails. -/
theorem drain_spec (hJ : J.RaisesValueError) (maxMessageBytes : ℕ) (lines : List Bytes) (tail : Bytes) :
    match lines.mapM (decode J maxMessageBytes) with
    | some ms => drain J maxMessageBytes lines tail = .ok ms
    | none => ∃ reason rest, drain J maxMessageBytes lines tail = .error (.framing reason, rest) := by
  induction lines with
  | nil => rfl
  | cons line lines ih =>
    rw [List.mapM_cons, drain]
    cases hd : decodeLine J maxMessageBytes line with
    | error e =>
      obtain ⟨reason, rfl⟩ := decodeLine_error hJ hd
      rw [decode, hd]
      exact ⟨reason, _, rfl⟩
    | ok m =>
      rw [decode, hd]
      cases hms : lines.mapM (decode J maxMessageBytes) with
      | none =>
        rw [hms] at ih
        obtain ⟨reason, rest, hdrain⟩ := ih
        exact ⟨reason, rest, by rw [hdrain]⟩
      | some ms =>
        rw [hms] at ih
        simp only at ih
        simp [Except.toOption, ih]

/-- **`feed` is a reader of lines** that fails for good where the reader stops. -/
theorem feed_spec (hJ : J.RaisesValueError) (hc : codec.poisoned = false) (chunk : Bytes) :
    match Framing.feed lf (decode J codec.maxMessageBytes) codec.maxMessageBytes codec.buffer chunk with
    | some (ms, buffer) => codec.feed J chunk = (.ok ms, { codec with buffer })
    | none => ∃ reason, codec.feed J chunk = codec.fail reason := by
  have hhealthy : ¬ codec.poisoned = true := by simp [hc]
  rw [feed, if_neg hhealthy, Framing.feed]
  by_cases hchunk : chunk = []
  · rw [if_pos hchunk, if_pos hchunk]
  rw [if_neg hchunk, if_neg hchunk, Framing.read]
  have hdrain := drain_spec hJ codec.maxMessageBytes
    (Framing.cut lf (codec.buffer ++ chunk)).1 (Framing.cut lf (codec.buffer ++ chunk)).2
  by_cases hlong : lf ∉ codec.buffer ++ chunk ∧ (codec.buffer ++ chunk).length > codec.maxMessageBytes
  · -- The early check fails where the last one would.
    rw [if_pos hlong, Framing.cut_of_notMem hlong.1]
    simp only [List.mapM_nil, Option.pure_def, if_neg (Nat.not_le.mpr hlong.2)]
    exact ⟨_, rfl⟩
  rw [if_neg hlong]
  dsimp only
  cases hms : (Framing.cut lf (codec.buffer ++ chunk)).1.mapM (decode J codec.maxMessageBytes) with
  | none =>
    rw [hms] at hdrain
    obtain ⟨reason, rest, hdrain⟩ := hdrain
    rw [hdrain]
    exact ⟨reason, rfl⟩
  | some ms =>
    rw [hms] at hdrain
    simp only at hdrain
    rw [hdrain]
    by_cases htail : (Framing.cut lf (codec.buffer ++ chunk)).2.length ≤ codec.maxMessageBytes
    · simp only [if_pos htail, if_neg (Nat.not_lt.mpr htail)]
    · simp only [if_neg htail, if_pos (Nat.lt_of_not_le htail)]
      exact ⟨_, rfl⟩

/-- **`feedAll` is that reader on a list of chunks.** -/
theorem feedAll_spec (hJ : J.RaisesValueError) (chunks : List Bytes) (codec : McpStdioLineCodec)
    (hc : codec.poisoned = false) :
    (codec.feedAll J chunks).1 = (Framing.feedAll lf (decode J codec.maxMessageBytes)
        codec.maxMessageBytes codec.buffer chunks).1 ∧
      (codec.feedAll J chunks).2 = match (Framing.feedAll lf (decode J codec.maxMessageBytes)
          codec.maxMessageBytes codec.buffer chunks).2 with
        | some buffer => { codec with buffer }
        | none => { codec with buffer := [], poisoned := true } := by
  induction chunks generalizing codec with
  | nil => exact ⟨rfl, rfl⟩
  | cons chunk chunks ih =>
    have hfeed := feed_spec hJ hc chunk
    rw [feedAll, Framing.feedAll]
    cases hf : Framing.feed lf (decode J codec.maxMessageBytes) codec.maxMessageBytes codec.buffer chunk with
    | none =>
      rw [hf] at hfeed
      obtain ⟨reason, hfeed⟩ := hfeed
      rw [hfeed]
      exact ⟨rfl, rfl⟩
    | some r =>
      obtain ⟨ms, buffer⟩ := r
      rw [hf] at hfeed
      simp only at hfeed
      obtain ⟨hms, hend⟩ := ih { codec with buffer } hc
      rw [hfeed]
      exact ⟨congrArg (ms ++ ·) hms, hend⟩

/-- **A poisoned codec rejects every later operation, and stays poisoned.** -/
theorem poisoned_rejects (h : codec.poisoned = true) (chunk : Bytes) (message : PyValue) :
    codec.feed J chunk = (.error unhealthy, codec) ∧ codec.encode J message = (.error unhealthy, codec) ∧
      codec.finish = (.error unhealthy, codec) := by
  refine ⟨by rw [feed, if_pos h], ?_, by rw [finish, if_pos h]⟩
  unfold encode
  rw [if_pos h]

/-- A new codec fed a stream in chunks ends as the stream decides. -/
theorem feedAll_fresh (hJ : J.RaisesValueError) (limit : ℕ) (hlimit : 0 < limit) (chunks : List Bytes) :
    match Framing.read lf (decode J limit) limit chunks.flatten with
    | some (ms, tail) => tail.length ≤ limit ∧
        (fresh limit hlimit).feedAll J chunks = (ms, { fresh limit hlimit with buffer := tail })
    | none => ((fresh limit hlimit).feedAll J chunks).2 = { fresh limit hlimit with poisoned := true } ∧
        ((fresh limit hlimit).feedAll J chunks).1 <+:
          Framing.accepted (decode J limit) (Framing.cut lf chunks.flatten).1 := by
  obtain ⟨hms, hend⟩ := feedAll_spec hJ chunks (fresh limit hlimit) rfl
  have hread := Framing.feedAll_eq lf (decode J limit) limit (fun _ _ => length_le_of_decode) chunks []
    List.not_mem_nil (Nat.zero_le _)
  rw [List.nil_append] at hread
  cases hr : Framing.read lf (decode J limit) limit chunks.flatten with
  | some r =>
    obtain ⟨ms, tail⟩ := r
    rw [hr] at hread
    simp only at hread
    refine ⟨(Framing.read_tail hr).2, Prod.ext ?_ ?_⟩
    · exact hms.trans (congrArg Prod.fst hread)
    · rw [hend]
      exact congrArg (fun r : List JsonObject × Option Bytes => match r.2 with
        | some buffer => ({ fresh limit hlimit with buffer } : McpStdioLineCodec)
        | none => { fresh limit hlimit with buffer := [], poisoned := true }) hread
  | none =>
    rw [hr] at hread
    refine ⟨?_, ?_⟩
    · rw [hend]
      exact congrArg (fun r : Option Bytes => match r with
        | some buffer => ({ fresh limit hlimit with buffer } : McpStdioLineCodec)
        | none => { fresh limit hlimit with buffer := [], poisoned := true }) hread.1
    · rw [hms]
      exact hread.2

/-- **Decoding does not depend on chunking.** Two ways of cutting one stream into chunks, fed to new
codecs with one limit, both end healthy, with the same messages and the same tail within the limit, or
both end poisoned with nothing buffered, having delivered first messages of one sequence; and a poisoned
codec rejects everything. -/
theorem chunking (J : JsonModule) (hJ : J.RaisesValueError) (limit : ℕ) (hlimit : 0 < limit)
    (chunks chunks' : List Bytes) (h : chunks.flatten = chunks'.flatten) :
    (((fresh limit hlimit).feedAll J chunks).2.poisoned = false ∧
        (fresh limit hlimit).feedAll J chunks = (fresh limit hlimit).feedAll J chunks' ∧
        ((fresh limit hlimit).feedAll J chunks).2.buffer.length ≤ limit ∨
      (((fresh limit hlimit).feedAll J chunks).2.poisoned = true ∧
        ((fresh limit hlimit).feedAll J chunks').2.poisoned = true ∧
        ((fresh limit hlimit).feedAll J chunks).2.buffer = [] ∧
        ((fresh limit hlimit).feedAll J chunks').2.buffer = [] ∧
        ∃ messages, ((fresh limit hlimit).feedAll J chunks).1 <+: messages ∧
          ((fresh limit hlimit).feedAll J chunks').1 <+: messages)) ∧
      ∀ codec : McpStdioLineCodec, codec.poisoned = true → ∀ chunk message,
        codec.feed J chunk = (.error unhealthy, codec) ∧
          codec.encode J message = (.error unhealthy, codec) ∧
          codec.finish = (.error unhealthy, codec) := by
  refine ⟨?_, fun codec hc chunk message => poisoned_rejects hc chunk message⟩
  have hfirst := feedAll_fresh hJ limit hlimit chunks
  have hsecond := feedAll_fresh hJ limit hlimit chunks'
  rw [← h] at hsecond
  cases hr : Framing.read lf (decode J limit) limit chunks.flatten with
  | some r =>
    rw [hr] at hfirst hsecond
    obtain ⟨hlen, hfirst⟩ := hfirst
    obtain ⟨-, hsecond⟩ := hsecond
    rw [hfirst, hsecond]
    exact .inl ⟨rfl, rfl, hlen⟩
  | none =>
    rw [hr] at hfirst hsecond
    rw [hfirst.1, hsecond.1]
    exact .inr ⟨rfl, rfl, rfl, rfl, _, hfirst.2, hsecond.2⟩

/-- A `json` that knows one text. -/
def sampleJson : JsonModule where
  dumps _ := .ok (some "\x7b\x7d".toList)
  loads text := if text = "\x7b\"é\":1\x7d".toList then .ok (.obj [(.utf8 "é", .int 1)])
    else .error (.ofClass "JSONDecodeError" ["ValueError"] "Expecting value")

theorem sampleJson_raises : sampleJson.RaisesValueError := by
  intro text e h
  simp only [sampleJson] at h
  split_ifs at h
  rw [← Except.error.inj h]
  rfl

/-- A two-byte character cut in the middle, in a stream of one line and the beginning of another. -/
def splitCharacter : List Bytes :=
  [[0x7b, 0x22, 0xc3], [0xa9, 0x22, 0x3a, 0x31, 0x7d, 0x0a, 0x7b]]

theorem chunking_splitCharacter :
    ((fresh 8 (by decide)).feedAll sampleJson splitCharacter).2.poisoned = false ∧
        (fresh 8 (by decide)).feedAll sampleJson splitCharacter =
          (fresh 8 (by decide)).feedAll sampleJson [splitCharacter.flatten] ∧
        ((fresh 8 (by decide)).feedAll sampleJson splitCharacter).2.buffer.length ≤ 8 := by
  have h := (chunking sampleJson sampleJson_raises 8 (by decide) splitCharacter
    [splitCharacter.flatten] rfl).1
  have hhealthy : ((fresh 8 (by decide)).feedAll sampleJson splitCharacter).2.poisoned = false := by
    decide +kernel
  exact h.resolve_right fun hpoisoned => by simp [hhealthy] at hpoisoned

end McpStdioLineCodec

end Rpr
