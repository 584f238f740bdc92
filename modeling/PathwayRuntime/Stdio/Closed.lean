import PathwayRuntime.Stdio.Json

/-!
# When the codec fails closed

* `Call`, `perform`, `after`: calls of one codec, one after another.
* `FailsClosed`: a call that raises is a framing failure, and leaves the codec poisoned and empty.
* `Caught`: nothing is raised past the codec's own `except` clauses.
* **`failsClosed_iff`**: in every state reached, a call fails closed exactly when it is caught.
* `encode_surrogate`, `feed_nested`: a text that UTF-8 cannot encode, and a line nested too deep.
-/

set_option autoImplicit false

namespace Rpr

namespace McpStdioLineCodec

/-! ## Calls -/

/-- A call of the codec. A chunk that is not bytes-like is `none`. -/
inductive Call : Type
  | encode (message : PyValue)
  | feed (chunk : Option Bytes)
  | finish

/-- `feed` of something that is not bytes-like. -/
def feedOther (codec : McpStdioLineCodec) : Except PyException (List JsonObject) × McpStdioLineCodec :=
  if codec.poisoned then (.error unhealthy, codec) else codec.fail "stdio chunk must be bytes-like"

/-- What a call raised, and the codec after it. -/
def outcome {α : Type} (r : Except PyException α × McpStdioLineCodec) : Option PyException × McpStdioLineCodec :=
  match r with
  | (.ok _, codec) => (none, codec)
  | (.error e, codec) => (some e, codec)

variable (J : JsonModule)

/-- One call. -/
def perform (codec : McpStdioLineCodec) : Call → Option PyException × McpStdioLineCodec
  | .encode message => outcome (codec.encode J message)
  | .feed (some chunk) => outcome (codec.feed J chunk)
  | .feed none => outcome codec.feedOther
  | .finish => outcome codec.finish

/-- The codec after some calls, whatever each of them returned or raised. -/
def after (calls : List Call) (codec : McpStdioLineCodec) : McpStdioLineCodec :=
  calls.foldl (fun codec call => (perform J codec call).2) codec

/-- A call that raises is a framing failure, and leaves the codec poisoned with an empty buffer. -/
def FailsClosed (r : Option PyException × McpStdioLineCodec) : Prop :=
  ∀ e, r.1 = some e → e.isA "McpStdioFramingError" = true ∧ r.2.poisoned = true ∧ r.2.buffer = []

/-- A poisoned codec buffers nothing. -/
def Empty (codec : McpStdioLineCodec) : Prop := codec.poisoned = true → codec.buffer = []

/-- A line that is handed to `json.loads`, and its text. -/
structure Text (maxMessageBytes : ℕ) (line : Bytes) (text : List Char) : Prop where
  nonempty : line ≠ []
  fits : line.length ≤ maxMessageBytes
  noBom : ¬ utf8Bom <+: line
  decoded : decodeUtf8 line = some text

/-- `json.loads` reads an object on this line. -/
def IsMessage (maxMessageBytes : ℕ) (line : Bytes) : Prop :=
  ∃ text m, Text maxMessageBytes line text ∧ J.loads text = .ok (.obj m)

/-- Nothing is raised past the `except` clauses. For a healthy codec, `json.dumps` of a mapping raises
nothing but `TypeError`s and `ValueError`s and its text has a UTF-8 form; and on the first line without a
message among those a chunk completes, `json.loads` raises nothing but `ValueError`s. -/
def Caught (codec : McpStdioLineCodec) : Call → Prop
  | .encode message => codec.poisoned = true ∨ ∀ fields, message = .dict fields →
      (∀ e, J.dumps fields = .error e → e.isAny ["TypeError", "ValueError"] = true) ∧
        J.dumps fields ≠ .ok none
  | .feed chunk => codec.poisoned = true ∨ ∀ data, chunk = some data → data ≠ [] →
      ∀ read line rest text e, (Framing.cut lf (codec.buffer ++ data)).1 = read ++ line :: rest →
        (∀ l ∈ read, IsMessage J codec.maxMessageBytes l) → Text codec.maxMessageBytes line text →
        J.loads text = .error e → e.isAny ["JSONDecodeError", "ValueError"] = true
  | .finish => True

variable {J} {codec : McpStdioLineCodec}

/-! ## Lines -/

theorem isMessage_iff {maxMessageBytes : ℕ} {line : Bytes} :
    IsMessage J maxMessageBytes line ↔ ∃ m, decodeLine J maxMessageBytes line = .ok m := by
  constructor
  · rintro ⟨text, m, htext, hloads⟩
    exact ⟨m, decodeLine_eq_ok.mpr ⟨htext.nonempty, htext.fits, htext.noBom, text, htext.decoded, hloads⟩⟩
  · rintro ⟨m, h⟩
    obtain ⟨hne, hfits, hbom, text, hdecoded, hloads⟩ := decodeLine_eq_ok.mp h
    exact ⟨text, m, ⟨hne, hfits, hbom, hdecoded⟩, hloads⟩

/-- **A line on which something escapes**: `json.loads` raises it, and it is no `ValueError`. -/
theorem decodeLine_eq_raised {maxMessageBytes : ℕ} {line : Bytes} {e : PyException} :
    decodeLine J maxMessageBytes line = .error (.raised e) ↔ ∃ text, Text maxMessageBytes line text ∧
      J.loads text = .error e ∧ ¬ e.isAny ["JSONDecodeError", "ValueError"] = true := by
  constructor
  · intro h
    rw [decodeLine] at h
    by_cases hempty : line = []
    · simp [hempty] at h
    by_cases hlong : line.length > maxMessageBytes
    · simp [hempty, hlong] at h
    by_cases hbom : utf8Bom <+: line
    · simp [hempty, hlong, hbom] at h
    simp only [hempty, hlong, hbom, if_false] at h
    cases hdecoded : decodeUtf8 line with
    | none => simp [hdecoded] at h
    | some text =>
      simp only [hdecoded] at h
      refine ⟨text, ⟨hempty, Nat.le_of_not_lt hlong, hbom, hdecoded⟩, ?_⟩
      cases hloads : J.loads text with
      | ok j =>
        rw [hloads] at h
        cases j <;> simp at h
      | error e' =>
        simp only [hloads] at h
        split_ifs at h with hcaught
        · cases h
        · obtain rfl := LineError.raised.inj (Except.error.inj h)
          exact ⟨rfl, hcaught⟩
  · rintro ⟨text, htext, hloads, hpassed⟩
    rw [decodeLine, if_neg htext.nonempty, if_neg (Nat.not_lt.mpr htext.fits), if_neg htext.noBom]
    simp only [htext.decoded, hloads, if_neg hpassed]

/-- **What escapes from the loop of `feed`** is raised on the first line that has no message. -/
theorem drain_eq_raised {maxMessageBytes : ℕ} {lines : List Bytes} {tail : Bytes} {e : PyException} :
    (∃ left, drain J maxMessageBytes lines tail = .error (.raised e, left)) ↔ ∃ read line rest,
      lines = read ++ line :: rest ∧ (∀ l ∈ read, IsMessage J maxMessageBytes l) ∧
        decodeLine J maxMessageBytes line = .error (.raised e) := by
  induction lines with
  | nil =>
    constructor
    · rintro ⟨left, h⟩
      cases h
    · rintro ⟨read, line, rest, h, -⟩
      simp at h
  | cons first lines ih =>
    rw [drain]
    cases hfirst : decodeLine J maxMessageBytes first with
    | error x =>
      constructor
      · rintro ⟨left, h⟩
        obtain ⟨rfl, -⟩ := Prod.mk.inj (Except.error.inj h)
        exact ⟨[], first, lines, rfl, fun l hl => absurd hl List.not_mem_nil, hfirst⟩
      · rintro ⟨read, line, rest, heq, hread, hline⟩
        cases read with
        | nil =>
          obtain ⟨rfl, rfl⟩ := List.cons.inj heq
          exact ⟨_, by rw [Except.error.inj (hfirst.symm.trans hline)]⟩
        | cons l read =>
          obtain ⟨rfl, -⟩ := List.cons.inj heq
          obtain ⟨m, hm⟩ := isMessage_iff.mp (hread first List.mem_cons_self)
          cases hfirst.symm.trans hm
    | ok m =>
      have hmessage : IsMessage J maxMessageBytes first := isMessage_iff.mpr ⟨m, hfirst⟩
      constructor
      · rintro ⟨left, h⟩
        cases hdrain : drain J maxMessageBytes lines tail with
        | ok ms =>
          rw [hdrain] at h
          cases h
        | error x =>
          rw [hdrain] at h
          obtain ⟨read, line, rest, rfl, hread, hline⟩ :=
            ih.mp ⟨left, hdrain.trans (congrArg _ (Except.error.inj h))⟩
          exact ⟨first :: read, line, rest, rfl, List.forall_mem_cons.mpr ⟨hmessage, hread⟩, hline⟩
      · rintro ⟨read, line, rest, heq, hread, hline⟩
        cases read with
        | nil =>
          obtain ⟨rfl, rfl⟩ := List.cons.inj heq
          cases hfirst.symm.trans hline
        | cons l read =>
          obtain ⟨rfl, rfl⟩ := List.cons.inj heq
          obtain ⟨left, hdrain⟩ :=
            ih.mpr ⟨read, line, rest, rfl, (List.forall_mem_cons.mp hread).2, hline⟩
          exact ⟨left, by rw [hdrain]⟩

/-! ## Calls that raise -/

theorem failsClosed_fail {α : Type} (reason : PyText) : FailsClosed (outcome (codec.fail (α := α) reason)) := by
  intro e h
  obtain rfl : mcpStdioFramingError reason = e := Option.some.inj h
  exact ⟨rfl, rfl, rfl⟩

theorem failsClosed_ok {α : Type} (r : α) : FailsClosed (outcome ((.ok r : Except PyException α), codec)) := by
  intro e h
  cases h

/-- A poisoned codec that is empty stays so. -/
theorem failsClosed_unhealthy {α : Type} (hempty : codec.Empty) (h : codec.poisoned = true) :
    FailsClosed (outcome ((.error unhealthy : Except PyException α), codec)) := by
  intro e he
  obtain rfl : unhealthy = e := Option.some.inj he
  exact ⟨rfl, h, hempty h⟩

/-- What a healthy codec raises without `_fail` leaves it healthy. -/
theorem not_failsClosed_raised {α : Type} (h : codec.poisoned = false) (e : PyException) (buffer : Bytes) :
    ¬ FailsClosed (outcome ((.error e : Except PyException α), { codec with buffer })) := by
  intro hclosed
  have hpoisoned : codec.poisoned = true := (hclosed e rfl).2.1
  rw [h] at hpoisoned
  cases hpoisoned

theorem encode_failsClosed (hempty : codec.Empty) (message : PyValue) :
    FailsClosed (perform J codec (.encode message)) ↔ Caught J codec (.encode message) := by
  simp only [perform, Caught]
  unfold encode
  by_cases hpoisoned : codec.poisoned = true
  · rw [if_pos hpoisoned]
    exact iff_of_true (failsClosed_unhealthy hempty hpoisoned) (.inl hpoisoned)
  have hhealthy : codec.poisoned = false := by simpa using hpoisoned
  rw [if_neg hpoisoned, or_iff_right hpoisoned]
  cases message with
  | dict fields =>
    simp only [PyValue.dict.injEq, forall_eq']
    cases hdumps : J.dumps fields with
    | error e =>
      by_cases he : e.isAny ["TypeError", "ValueError"] = true
      · simp only [if_pos he]
        exact iff_of_true (failsClosed_fail _) ⟨fun e' h => Except.error.inj h ▸ he, by simp⟩
      · simp only [if_neg he]
        exact iff_of_false (not_failsClosed_raised hhealthy e codec.buffer) fun h => he (h.1 e rfl)
    | ok written =>
      cases written with
      | none =>
        exact iff_of_false (not_failsClosed_raised hhealthy _ codec.buffer) fun h => h.2 rfl
      | some text =>
        refine iff_of_true ?_ ⟨by simp, by simp⟩
        dsimp only
        split_ifs
        · exact failsClosed_fail _
        · exact failsClosed_fail _
        · exact failsClosed_ok _
  | _ => exact iff_of_true (failsClosed_fail _) (by simp)

theorem feed_failsClosed (hempty : codec.Empty) (chunk : Option Bytes) :
    FailsClosed (perform J codec (.feed chunk)) ↔ Caught J codec (.feed chunk) := by
  simp only [Caught]
  by_cases hpoisoned : codec.poisoned = true
  · refine iff_of_true ?_ (.inl hpoisoned)
    cases chunk with
    | none =>
      rw [perform, feedOther, if_pos hpoisoned]
      exact failsClosed_unhealthy hempty hpoisoned
    | some data =>
      rw [perform, feed, if_pos hpoisoned]
      exact failsClosed_unhealthy hempty hpoisoned
  have hhealthy : codec.poisoned = false := by simpa using hpoisoned
  rw [or_iff_right hpoisoned]
  cases chunk with
  | none =>
    rw [perform, feedOther, if_neg hpoisoned]
    exact iff_of_true (failsClosed_fail _) (by simp)
  | some data =>
    simp only [Option.some.injEq, forall_eq']
    rw [perform, feed, if_neg hpoisoned]
    by_cases hdata : data = []
    · rw [if_pos hdata]
      exact iff_of_true (failsClosed_ok _) fun h => absurd hdata h
    rw [if_neg hdata, imp_iff_right hdata]
    dsimp only
    by_cases hlong : lf ∉ codec.buffer ++ data ∧ (codec.buffer ++ data).length > codec.maxMessageBytes
    · -- Without a line feed there is no line to decode.
      rw [if_pos hlong, Framing.cut_of_notMem hlong.1]
      exact iff_of_true (failsClosed_fail _) fun read line rest text e h => by simp at h
    rw [if_neg hlong]
    have hraised (e : PyException) : (∃ left, drain J codec.maxMessageBytes
        (Framing.cut lf (codec.buffer ++ data)).1 (Framing.cut lf (codec.buffer ++ data)).2 =
          .error (.raised e, left)) ↔ _ := drain_eq_raised
    cases hdrain : drain J codec.maxMessageBytes (Framing.cut lf (codec.buffer ++ data)).1
        (Framing.cut lf (codec.buffer ++ data)).2 with
    | error x =>
      obtain ⟨error, left⟩ := x
      cases error with
      | framing reason =>
        refine iff_of_true (failsClosed_fail _) fun read line rest text e hlines hread htext hloads => ?_
        by_contra hpassed
        obtain ⟨left', h⟩ := (hraised e).mpr
          ⟨read, line, rest, hlines, hread, decodeLine_eq_raised.mpr ⟨text, htext, hloads, hpassed⟩⟩
        rw [hdrain] at h
        cases h
      | raised e =>
        refine iff_of_false (not_failsClosed_raised hhealthy e left) fun hcaught => ?_
        obtain ⟨read, line, rest, hlines, hread, hline⟩ := (hraised e).mp ⟨left, hdrain⟩
        obtain ⟨text, htext, hloads, hpassed⟩ := decodeLine_eq_raised.mp hline
        exact hpassed (hcaught read line rest text e hlines hread htext hloads)
    | ok messages =>
      refine iff_of_true ?_ fun read line rest text e hlines hread htext hloads => ?_
      · dsimp only
        split_ifs
        · exact failsClosed_fail _
        · exact failsClosed_ok _
      · by_contra hpassed
        obtain ⟨left', h⟩ := (hraised e).mpr
          ⟨read, line, rest, hlines, hread, decodeLine_eq_raised.mpr ⟨text, htext, hloads, hpassed⟩⟩
        rw [hdrain] at h
        cases h

theorem finish_failsClosed (hempty : codec.Empty) : FailsClosed (perform J codec .finish) := by
  rw [perform, finish]
  split_ifs with hpoisoned hbuffer
  · exact failsClosed_unhealthy hempty hpoisoned
  · exact failsClosed_fail _
  · exact failsClosed_ok _

/-- **One call** of an empty codec fails closed exactly when it is caught. -/
theorem perform_failsClosed (hempty : codec.Empty) (call : Call) :
    FailsClosed (perform J codec call) ↔ Caught J codec call := by
  cases call with
  | encode message => exact encode_failsClosed hempty message
  | feed chunk => exact feed_failsClosed hempty chunk
  | finish => exact iff_of_true (finish_failsClosed hempty) trivial

/-! ## Runs -/

theorem snd_outcome {α : Type} (r : Except PyException α × McpStdioLineCodec) : (outcome r).2 = r.2 := by
  obtain ⟨r, codec⟩ := r
  cases r <;> rfl

/-- **Every call keeps a poisoned codec empty**: `_fail` is all that poisons it. -/
theorem perform_empty (hempty : codec.Empty) (call : Call) : (perform J codec call).2.Empty := by
  have hfailed : ∀ codec' : McpStdioLineCodec,
      codec' = codec ∨ codec' = { codec with buffer := [], poisoned := true } → codec'.Empty := by
    rintro codec' (rfl | rfl)
    · exact hempty
    · exact fun _ => rfl
  cases call with
  | encode message =>
    rw [perform, snd_outcome]
    exact hfailed _ (encode_cases message)
  | finish =>
    rw [perform, snd_outcome]
    exact hfailed _ finish_cases
  | feed chunk =>
    by_cases hpoisoned : codec.poisoned = true
    · cases chunk with
      | none =>
        rw [perform, snd_outcome, feedOther, if_pos hpoisoned]
        exact hempty
      | some data =>
        rw [perform, snd_outcome, feed, if_pos hpoisoned]
        exact hempty
    · cases chunk with
      | none =>
        rw [perform, snd_outcome, feedOther, if_neg hpoisoned]
        exact fun _ => rfl
      | some data =>
        rw [perform, snd_outcome, feed, if_neg hpoisoned]
        by_cases hdata : data = []
        · rw [if_pos hdata]
          exact hempty
        rw [if_neg hdata]
        dsimp only
        -- A codec that is not poisoned has nothing to show.
        have hother : ∀ buffer, ({ codec with buffer } : McpStdioLineCodec).Empty :=
          fun buffer h => absurd h hpoisoned
        split
        · exact fun _ => rfl
        · split
          · exact fun _ => rfl
          · exact hother _
          · split_ifs
            · exact fun _ => rfl
            · exact hother _

theorem after_empty (calls : List Call) (hempty : codec.Empty) : (after J calls codec).Empty := by
  induction calls generalizing codec with
  | nil => exact hempty
  | cons call calls ih => exact ih (perform_empty hempty call)

/-- **Failing closed.** In every state that calls lead a new codec to, a call that raises raises a framing
error and leaves the codec poisoned and empty exactly when nothing escapes the `except` clauses. -/
theorem failsClosed_iff (J : JsonModule) (limit : ℕ) (hlimit : 0 < limit) (calls : List Call) (call : Call) :
    FailsClosed (perform J (after J calls (fresh limit hlimit)) call) ↔
      Caught J (after J calls (fresh limit hlimit)) call :=
  perform_failsClosed (after_empty calls fun _ => rfl) call

/-- An empty object is written by a new codec. -/
theorem failsClosed_healthy : FailsClosed (perform JsonPlatform.sample.json
    (after JsonPlatform.sample.json [] (fresh 64 (by decide))) (.encode (.dict []))) := by
  refine (failsClosed_iff JsonPlatform.sample.json 64 (by decide) [] (.encode (.dict []))).mpr
    (.inr fun fields h => ?_)
  obtain rfl := PyValue.dict.inj h
  refine ⟨fun e he => ?_, by decide⟩
  cases he

/-- **A text that UTF-8 cannot encode** is refused by a codec that stays healthy. -/
theorem encode_surrogate {limit : ℕ} (hlimit : 0 < limit) :
    ¬ FailsClosed (perform JsonPlatform.sample.json (fresh limit hlimit)
      (.encode (.dict [(.str "text", .str (.lone [0xD800] ⟨0xD800, by decide⟩))]))) := by
  rw [encode_failsClosed fun _ => rfl]
  intro hcaught
  exact (hcaught.resolve_left (by simp [fresh]) _ rfl).2 (by rfl)

/-! ## Lines that are nested too deep -/

/-- So many brackets that are not closed. -/
def brackets (depth : ℕ) : List Char := List.replicate depth '['

theorem skipSpace_brackets (depth : ℕ) : skipSpace (brackets depth) = brackets depth := by
  cases depth with
  | zero => rfl
  | succ depth => rfl

/-- **One bracket more than the scanner may nest** raises a `RecursionError`. -/
theorem scanOnce_brackets (py : JsonPlatform) (hooks : JsonHooks) (frames depth : ℕ) (h : frames < depth) :
    scanOnce py hooks frames (brackets depth) = .error (.raised recursionError) := by
  induction frames generalizing depth with
  | zero =>
    obtain ⟨depth, rfl⟩ := Nat.exists_eq_succ_of_ne_zero (Nat.ne_of_gt h)
    rfl
  | succ frames ih =>
    obtain ⟨depth, rfl⟩ : ∃ n, depth = n + 1 + 1 := ⟨depth - 2, by omega⟩
    have harray : scanArray (scanOnce py hooks frames) (brackets (depth + 1)) =
        .error (.raised recursionError) := by
      -- The first item is the rest of the brackets.
      have hitem : scanOnce py hooks frames ('[' :: brackets depth) = .error (.raised recursionError) :=
        ih (depth + 1) (by omega)
      rw [scanArray, skipSpace_brackets]
      change scanItems _ ('[' :: brackets depth).length ('[' :: brackets depth) = _
      rw [List.length_cons, scanItems, hitem]
    change (scanArray (scanOnce py hooks frames) (brackets (depth + 1))).map _ = _
    rw [harray]
    rfl

theorem loads_brackets (py : JsonPlatform) (hooks : JsonHooks) (depth : ℕ) (h : py.scannerFrames < depth) :
    loads py hooks (brackets depth) = .error recursionError := by
  have hhead : (brackets depth).head? ≠ some '\uFEFF' := by
    intro hhead
    have hmem := List.mem_of_mem_head? hhead
    exact absurd (List.eq_of_mem_replicate hmem) (by decide)
  rw [loads, if_neg hhead, skipSpace_brackets, scanOnce_brackets py hooks _ depth h]

theorem encodeUtf8_brackets (depth : ℕ) : encodeUtf8 (brackets depth) = List.replicate depth 0x5b := by
  induction depth with
  | zero => rfl
  | succ depth ih => exact congrArg (List.cons 0x5b) ih

theorem text_brackets {limit depth : ℕ} (hpos : 0 < depth) (h : depth ≤ limit) :
    Text limit (encodeUtf8 (brackets depth)) (brackets depth) := by
  obtain ⟨depth, rfl⟩ := Nat.exists_eq_succ_of_ne_zero (Nat.ne_of_gt hpos)
  have hbom : ¬ utf8Bom <+: encodeUtf8 (brackets (depth + 1)) := by
    rw [encodeUtf8_brackets, List.replicate_succ, utf8Bom, List.cons_prefix_cons]
    exact fun h => absurd h.1 (by decide)
  exact ⟨by simp [encodeUtf8_brackets], by rwa [encodeUtf8_brackets, List.length_replicate], hbom,
    decodeUtf8_encodeUtf8 _⟩

/-- The line of an empty object, and one of brackets. -/
def nestedLines (depth : ℕ) : List Bytes := [encodeUtf8 "\x7b\x7d".toList, encodeUtf8 (brackets depth)]

theorem lf_notMem_nestedLines (depth : ℕ) : ∀ l ∈ nestedLines depth, lf ∉ l := by
  refine List.forall_mem_cons.mpr ⟨by decide, List.forall_mem_singleton.mpr ?_⟩
  rw [encodeUtf8_brackets]
  exact fun h => absurd (List.eq_of_mem_replicate h) (by decide)

/-- **A line that is nested too deep** raises past `feed`: the message before it is lost, and the codec
stays healthy. -/
theorem feed_nested {limit depth : ℕ} (hlimit : 0 < limit) (hdepth : JsonPlatform.sample.scannerFrames < depth)
    (hfits : depth ≤ limit) :
    ¬ FailsClosed (perform JsonPlatform.sample.json (fresh limit hlimit)
      (.feed (some (Framing.join lf (nestedLines depth) [])))) := by
  rw [feed_failsClosed fun _ => rfl]
  intro hcaught
  have hpos : 2 ≤ depth := Nat.lt_of_le_of_lt (by decide) hdepth
  have hcut : (Framing.cut lf (Framing.join lf (nestedLines depth) [])).1 = nestedLines depth := by
    rw [Framing.cut_join (lf_notMem_nestedLines depth), Framing.cut_nil, List.append_nil]
  have hne : Framing.join lf (nestedLines depth) [] ≠ [] := by simp [nestedLines]
  have hmessage : IsMessage JsonPlatform.sample.json limit (encodeUtf8 "\x7b\x7d".toList) :=
    ⟨_, [], ⟨by decide, hpos.trans hfits, by decide, decodeUtf8_encodeUtf8 _⟩, by rfl⟩
  have hvalue := hcaught.resolve_left (by simp [fresh]) _ rfl hne [encodeUtf8 "\x7b\x7d".toList]
    (encodeUtf8 (brackets depth)) [] (brackets depth) recursionError hcut
    (List.forall_mem_singleton.mpr hmessage) (text_brackets (by omega) hfits)
    (loads_brackets _ _ _ hdepth)
  exact absurd hvalue (by decide)

/-- Neither direction of the codec fails closed on every input. -/
theorem not_failsClosed :
    ¬ FailsClosed (perform JsonPlatform.sample.json (fresh 4096 (by decide))
        (.encode (.dict [(.str "text", .str (.lone [0xD800] ⟨0xD800, by decide⟩))]))) ∧
      ¬ FailsClosed (perform JsonPlatform.sample.json (fresh 4096 (by decide))
        (.feed (some (Framing.join lf (nestedLines 1000) [])))) :=
  ⟨encode_surrogate (by decide), feed_nested (by decide) (by decide) (by decide)⟩

end McpStdioLineCodec

end Rpr
