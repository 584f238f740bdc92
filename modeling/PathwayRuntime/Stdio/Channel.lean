import PathwayRuntime.Model.Stdio

/-!
# What the operations of the codec and the channel do

One fact an operation, for the runs of the other files.

* `feed_eq_ok`, `feed_frame`: feeding a chunk; `encode_cases`, `encode_eq_ok`: encoding a message.
* `send_wrote`: a call writes a beginning of its encoded line, all of it when it returns.
* `awaitMessage_eq_ok`: a message that is returned is the one line that the bytes read complete.
-/

set_option autoImplicit false

namespace Rpr

namespace McpStdioLineCodec

variable {J : JsonModule} {codec : McpStdioLineCodec}

/-- Every line of the buffer was decoded. -/
theorem drain_eq_ok {maxMessageBytes : ℕ} {lines : List Bytes} {tail : Bytes} {ms : List JsonObject}
    (h : drain J maxMessageBytes lines tail = .ok ms) :
    List.Forall₂ (fun line m => decodeLine J maxMessageBytes line = .ok m) lines ms := by
  induction lines generalizing ms with
  | nil =>
    obtain rfl : [] = ms := Except.ok.inj h
    exact .nil
  | cons line lines ih =>
    rw [drain] at h
    cases hd : decodeLine J maxMessageBytes line with
    | error e => simp [hd] at h
    | ok m =>
      cases hr : drain J maxMessageBytes lines tail with
      | error e => simp [hd, hr] at h
      | ok rest =>
        simp only [hd, hr, Except.ok.injEq] at h
        exact h ▸ .cons hd (ih hr)

/-- What is left of the buffer after an error is what follows some of its lines. -/
theorem drain_eq_error {maxMessageBytes : ℕ} {lines : List Bytes} {tail rest : Bytes} {e : LineError}
    (h : drain J maxMessageBytes lines tail = .error (e, rest)) :
    ∃ taken, (∀ l ∈ taken, l ∈ lines) ∧ Framing.join lf lines tail = Framing.join lf taken rest := by
  induction lines with
  | nil => cases h
  | cons line lines ih =>
    rw [drain] at h
    cases hd : decodeLine J maxMessageBytes line with
    | error e' =>
      simp only [hd, Except.error.injEq, Prod.mk.injEq] at h
      refine ⟨[line], by simp, ?_⟩
      rw [← h.2, Framing.join_cons, Framing.join_cons, Framing.join_nil]
    | ok m =>
      simp only [hd] at h
      cases hr : drain J maxMessageBytes lines tail with
      | error x =>
        simp only [hr, Except.error.injEq] at h
        obtain ⟨taken, hmem, htaken⟩ := ih (hr.trans (congrArg _ h))
        refine ⟨line :: taken, ?_, by rw [Framing.join_cons, Framing.join_cons, htaken]⟩
        exact List.forall_mem_cons.mpr ⟨List.mem_cons_self, fun l hl => List.mem_cons_of_mem _ (hmem l hl)⟩
      | ok ms => simp [hr] at h

/-- **Feeding a chunk, when it succeeds**: the lines it completes are decoded. -/
theorem feed_eq_ok {chunk : Bytes} (hchunk : chunk ≠ []) {ms : List JsonObject} {codec' : McpStdioLineCodec}
    (h : codec.feed J chunk = (.ok ms, codec')) : codec.poisoned = false ∧
      List.Forall₂ (fun line m => decodeLine J codec.maxMessageBytes line = .ok m)
        (Framing.cut lf (codec.buffer ++ chunk)).1 ms ∧
      codec' = { codec with buffer := (Framing.cut lf (codec.buffer ++ chunk)).2 } := by
  rw [feed] at h
  by_cases hpoisoned : codec.poisoned = true
  · simp [hpoisoned] at h
  rw [if_neg hpoisoned, if_neg hchunk] at h
  by_cases hlong : lf ∉ codec.buffer ++ chunk ∧ (codec.buffer ++ chunk).length > codec.maxMessageBytes
  · rw [if_pos hlong] at h
    cases congrArg Prod.fst h
  dsimp only at h
  rw [if_neg hlong] at h
  cases hdrain : drain J codec.maxMessageBytes (Framing.cut lf (codec.buffer ++ chunk)).1
      (Framing.cut lf (codec.buffer ++ chunk)).2 with
  | error x =>
    obtain ⟨e, rest⟩ := x
    cases e <;> simp [hdrain, fail] at h
  | ok messages =>
    rw [hdrain] at h
    by_cases htail : (Framing.cut lf (codec.buffer ++ chunk)).2.length > codec.maxMessageBytes
    · simp [htail, fail] at h
    · simp only [if_neg htail, Prod.mk.injEq, Except.ok.injEq] at h
      exact ⟨by simpa using hpoisoned, h.1 ▸ drain_eq_ok hdrain, h.2.symm⟩

/-- The buffer is what follows some lines of the stream, unless the codec is poisoned. -/
def Aligned (codec : McpStdioLineCodec) (stream : Bytes) : Prop :=
  codec.poisoned = false → ∃ lines, (∀ l ∈ lines, lf ∉ l) ∧ stream = Framing.join lf lines codec.buffer

theorem fail_aligned {α : Type} {reason : PyText} {stream : Bytes} :
    (codec.fail (α := α) reason).2.Aligned stream := by
  intro h
  cases h

/-- **Feeding a chunk keeps the limit and the alignment.** -/
theorem feed_frame (chunk : Bytes) : (codec.feed J chunk).2.maxMessageBytes = codec.maxMessageBytes ∧
    ∀ stream, codec.Aligned stream → (codec.feed J chunk).2.Aligned (stream ++ chunk) := by
  rw [feed]
  by_cases hpoisoned : codec.poisoned = true
  · rw [if_pos hpoisoned]
    exact ⟨rfl, fun stream _ h => by rw [hpoisoned] at h; cases h⟩
  rw [if_neg hpoisoned]
  by_cases hchunk : chunk = []
  · rw [if_pos hchunk]
    refine ⟨rfl, fun stream h => ?_⟩
    rw [hchunk, List.append_nil]
    exact h
  rw [if_neg hchunk]
  dsimp only
  by_cases hlong : lf ∉ codec.buffer ++ chunk ∧ (codec.buffer ++ chunk).length > codec.maxMessageBytes
  · rw [if_pos hlong]
    exact ⟨rfl, fun stream _ => fail_aligned⟩
  rw [if_neg hlong]
  -- The stream goes on with the lines of the buffer and its tail.
  have hstream : ∀ stream, codec.Aligned stream → ∃ lines, (∀ l ∈ lines, lf ∉ l) ∧
      stream ++ chunk = Framing.join lf lines
        (Framing.join lf (Framing.cut lf (codec.buffer ++ chunk)).1
          (Framing.cut lf (codec.buffer ++ chunk)).2) := by
    intro stream h
    obtain ⟨lines, hlines, rfl⟩ := h (by simpa using hpoisoned)
    exact ⟨lines, hlines, by rw [Framing.join_cut]; simp [Framing.join]⟩
  have hcut := (Framing.notMem_cut lf (codec.buffer ++ chunk)).1
  cases hdrain : drain J codec.maxMessageBytes (Framing.cut lf (codec.buffer ++ chunk)).1
      (Framing.cut lf (codec.buffer ++ chunk)).2 with
  | error x =>
    obtain ⟨e, rest⟩ := x
    cases e with
    | framing reason => exact ⟨rfl, fun stream _ => fail_aligned⟩
    | raised e =>
      refine ⟨rfl, fun stream h _ => ?_⟩
      obtain ⟨lines, hlf, hlines⟩ := hstream stream h
      obtain ⟨taken, hmem, htaken⟩ := drain_eq_error hdrain
      exact ⟨lines ++ taken, List.forall_mem_append.mpr ⟨hlf, fun l hl => hcut l (hmem l hl)⟩, by
        rw [hlines, htaken, Framing.join_append]⟩
  | ok messages =>
    by_cases htail : (Framing.cut lf (codec.buffer ++ chunk)).2.length > codec.maxMessageBytes
    · simp only [if_pos htail]
      exact ⟨rfl, fun stream _ => fail_aligned⟩
    · simp only [if_neg htail]
      refine ⟨trivial, fun stream h _ => ?_⟩
      obtain ⟨lines, hlf, hlines⟩ := hstream stream h
      exact ⟨lines ++ (Framing.cut lf (codec.buffer ++ chunk)).1,
        List.forall_mem_append.mpr ⟨hlf, hcut⟩, by rw [hlines, Framing.join_append]⟩

/-- A codec that is unchanged or poisoned keeps the limit and the alignment. -/
theorem frame_of_fail {codec' : McpStdioLineCodec}
    (h : codec' = codec ∨ codec' = { codec with buffer := [], poisoned := true }) :
    codec'.maxMessageBytes = codec.maxMessageBytes ∧
      ∀ stream, codec.Aligned stream → codec'.Aligned stream := by
  rcases h with rfl | rfl
  · exact ⟨rfl, fun _ h => h⟩
  · exact ⟨rfl, fun _ _ h => by cases h⟩

theorem encode_cases (message : PyValue) : (codec.encode J message).2 = codec ∨
    (codec.encode J message).2 = { codec with buffer := [], poisoned := true } := by
  unfold encode
  split
  · exact .inl rfl
  split
  · split
    · split
      · exact .inr rfl
      · exact .inl rfl
    · exact .inl rfl
    · split
      · exact .inr rfl
      · split
        · exact .inr rfl
        · exact .inl rfl
  · exact .inr rfl

theorem finish_cases : codec.finish.2 = codec ∨
    codec.finish.2 = { codec with buffer := [], poisoned := true } := by
  rw [finish]
  split_ifs
  · exact .inl rfl
  · exact .inr rfl
  · exact .inl rfl

/-- An encoded message: its text, which fits the limit, and a line feed. -/
theorem encode_eq_ok {message : PyValue} {line : Bytes} {codec' : McpStdioLineCodec}
    (h : codec.encode J message = (.ok line, codec')) : codec' = codec ∧ codec.poisoned = false ∧
      ∃ fields text, message = .dict fields ∧ J.dumps fields = .ok (some text) ∧
        (encodeUtf8 text).length ≤ codec.maxMessageBytes ∧ line = encodeUtf8 text ++ [lf] := by
  unfold encode at h
  by_cases hpoisoned : codec.poisoned = true
  · simp [hpoisoned] at h
  rw [if_neg hpoisoned] at h
  cases message with
  | dict fields =>
    simp only at h
    cases hdumps : J.dumps fields with
    | error e =>
      simp only [hdumps] at h
      split_ifs at h <;> cases congrArg Prod.fst h
    | ok written =>
      cases written with
      | none => simp [hdumps] at h
      | some text =>
        simp only [hdumps] at h
        split_ifs at h with hbom hlong
        · simp [fail] at h
        · simp [fail] at h
        · obtain ⟨hline, hcodec⟩ := Prod.mk.inj h
          exact ⟨hcodec.symm, by simpa using hpoisoned, fields, text, rfl, hdumps,
            Nat.le_of_not_lt hlong, (Except.ok.inj hline).symm⟩
  | _ => simp [fail] at h

end McpStdioLineCodec

namespace McpStdioChannel

variable {σ : Type} {J : JsonModule} {duplex : McpStdioDuplex σ}

variable (duplex) in
/-- **The write loop** writes a beginning of the payload, all of it when it returns. -/
theorem writeAll_spec (fuel : ℕ) (payload : Bytes) (c : McpStdioChannel σ) (hfuel : payload.length ≤ fuel) :
    ∃ k peer, k ≤ payload.length ∧
      (writeAll duplex fuel payload c).2 = { c with peer, stdin := c.stdin ++ payload.take k } ∧
      ((writeAll duplex fuel payload c).1 = .ok () → k = payload.length) := by
  induction fuel generalizing payload c with
  | zero =>
    obtain rfl := List.length_eq_zero_iff.mp (Nat.le_zero.mp hfuel)
    exact ⟨0, c.peer, le_rfl, by simp [writeAll], fun _ => rfl⟩
  | succ fuel ih =>
    rw [writeAll]
    by_cases hempty : payload = []
    · subst hempty
      exact ⟨0, c.peer, le_rfl, by simp, fun _ => rfl⟩
    rw [if_neg hempty]
    -- A turn that ends the loop writes nothing.
    have hstop : ∀ peer, ({ c with peer } : McpStdioChannel σ) =
        { c with peer, stdin := c.stdin ++ payload.take 0 } := by
      intro peer
      rw [List.take_zero, List.append_nil]
    cases hw : duplex.writeStdin payload c.peer with
    | mk outcome peer =>
      cases outcome with
      | raised e => exact ⟨0, peer, Nat.zero_le _, hstop peer, fun h => by cases h⟩
      | nonInteger => exact ⟨0, peer, Nat.zero_le _, hstop peer, fun h => by cases h⟩
      | wrote count =>
        simp only
        by_cases hcount : count ≤ 0 ∨ (payload.length : ℤ) < count
        · rw [if_pos hcount]
          exact ⟨0, peer, Nat.zero_le _, hstop peer, fun h => by cases h⟩
        rw [if_neg hcount]
        have hle : count.toNat ≤ payload.length := by omega
        obtain ⟨k, peer', hk, heq, hok⟩ := ih (payload.drop count.toNat)
          { c with peer, stdin := c.stdin ++ payload.take count.toNat }
          (by rw [List.length_drop]; omega)
        rw [List.length_drop] at hk hok
        refine ⟨count.toNat + k, peer', by omega, ?_, fun h => by rw [hok h]; omega⟩
        rw [heq, List.append_assoc, ← List.take_add]

/-- The line a call would write: its encoded message, if it has one and `stdout` is open. -/
def line (J : JsonModule) (c : McpStdioChannel σ) (message : PyValue) : Bytes :=
  if c.stdoutEof then []
  else
    match (c.codec.encode J message).1 with
    | .ok line => line
    | .error _ => []

/-- What a call writes keeps the rest of the channel, but for the codec. -/
structure Wrote (J : JsonModule) (message : PyValue) (c c' : McpStdioChannel σ) : Prop where
  stdin : ∃ k ≤ (line J c message).length, c'.stdin = c.stdin ++ (line J c message).take k
  stdout : c'.stdout = c.stdout
  codec : c'.codec = c.codec ∨ c'.codec = (c.codec.encode J message).2

/-- **`send` writes a beginning of its line.** -/
theorem send_wrote (message : PyValue) (c : McpStdioChannel σ) :
    Wrote J message c (send J duplex message c).2 := by
  rw [send]
  by_cases hclosed : c.stdoutEof = true
  · rw [if_pos hclosed]
    exact ⟨⟨0, Nat.zero_le _, by simp⟩, rfl, .inl rfl⟩
  rw [if_neg hclosed, writeMessage]
  cases hencode : c.codec.encode J message with
  | mk written codec =>
    cases written with
    | error e =>
      exact ⟨⟨0, Nat.zero_le _, by simp⟩, rfl, .inr (by rw [hencode])⟩
    | ok payload =>
      obtain ⟨k, peer, hk, heq, -⟩ := writeAll_spec duplex payload.length payload
        { c with codec } le_rfl
      have hline : line J c message = payload := by
        rw [line, if_neg hclosed, hencode]
      simp only [heq]
      exact ⟨⟨k, hline ▸ hk, by rw [hline]⟩, rfl, .inr (by rw [hencode])⟩

/-- **A call that returned wrote its whole line**, and changed nothing else. -/
theorem send_eq_ok {message : PyValue} {c c' : McpStdioChannel σ}
    (h : send J duplex message c = (.ok (), c')) : c.stdoutEof = false ∧ ∃ payload peer,
      c.codec.encode J message = (.ok payload, c.codec) ∧
        c' = { c with peer, stdin := c.stdin ++ payload } := by
  rw [send] at h
  by_cases hclosed : c.stdoutEof = true
  · simp [hclosed] at h
  rw [if_neg hclosed, writeMessage] at h
  cases hencode : c.codec.encode J message with
  | mk written codec =>
    cases written with
    | error e => simp [hencode] at h
    | ok payload =>
      simp only [hencode] at h
      obtain ⟨rfl, -⟩ := McpStdioLineCodec.encode_eq_ok hencode
      obtain ⟨k, peer, -, heq, hok⟩ := writeAll_spec duplex payload.length payload c le_rfl
      obtain rfl := hok (congrArg Prod.fst h)
      refine ⟨by simpa using hclosed, payload, peer, rfl, ?_⟩
      rw [List.take_length] at heq
      exact (congrArg Prod.snd h).symm.trans heq

/-! ## Reading -/

/-- Reading keeps what was written and the limit, and appends what it reads to the stream. -/
structure Reads (c c' : McpStdioChannel σ) : Prop where
  stdin : c'.stdin = c.stdin
  limit : c'.codec.maxMessageBytes = c.codec.maxMessageBytes
  stdout : ∃ new, c'.stdout = c.stdout ++ new
  aligned : c.codec.Aligned c.stdout → c'.codec.Aligned c'.stdout

theorem Reads.refl (c : McpStdioChannel σ) : Reads c c := ⟨rfl, rfl, ⟨[], by simp⟩, id⟩

theorem Reads.trans {c₁ c₂ c₃ : McpStdioChannel σ} (h : Reads c₁ c₂) (h' : Reads c₂ c₃) : Reads c₁ c₃ := by
  obtain ⟨new, hnew⟩ := h.stdout
  obtain ⟨new', hnew'⟩ := h'.stdout
  exact ⟨h'.stdin.trans h.stdin, h'.limit.trans h.limit,
    ⟨new ++ new', by rw [hnew', hnew, List.append_assoc]⟩, fun ha => h'.aligned (h.aligned ha)⟩

/-- A channel that differs only in what reading does not look at. -/
theorem Reads.of_eq {c c' : McpStdioChannel σ} (hstdin : c'.stdin = c.stdin) (hcodec : c'.codec = c.codec)
    (hstdout : c'.stdout = c.stdout) : Reads c c' :=
  ⟨hstdin, by rw [hcodec], ⟨[], by rw [hstdout, List.append_nil]⟩, fun h => by rwa [hcodec, hstdout]⟩

theorem readEvent_frame (c : McpStdioChannel σ) : ∃ peer, (readEvent duplex c).2 = { c with peer } := by
  rw [readEvent]
  cases duplex.readEvent c.peer with
  | mk outcome peer => cases outcome <;> exact ⟨peer, rfl⟩

theorem handleStderr_frame (event : McpStdioEvent) (c : McpStdioChannel σ) :
    ∃ diagnostics stderrEof, (handleStderr event c).2 = { c with diagnostics, stderrEof } := by
  rw [handleStderr]
  split_ifs <;> exact ⟨_, _, rfl⟩

/-- Handling an event only reads. -/
theorem handleEvent_reads (event : McpStdioEvent) (c : McpStdioChannel σ) :
    Reads c (handleEvent J event c).2 := by
  rw [handleEvent]
  cases event.stream with
  | stderr =>
    obtain ⟨diagnostics, stderrEof, heq⟩ := handleStderr_frame event c
    cases hstderr : handleStderr event c with
    | mk r c' =>
      rw [hstderr] at heq
      cases r <;> exact Reads.of_eq (by rw [heq]) (by rw [heq]) (by rw [heq])
  | stdout =>
    simp only
    by_cases heof : event.eof = true
    · rw [if_pos heof]
      obtain ⟨hlimit, haligned⟩ := McpStdioLineCodec.frame_of_fail
        (@McpStdioLineCodec.finish_cases c.codec)
      cases hfinish : c.codec.finish with
      | mk r codec =>
        rw [hfinish] at hlimit haligned
        cases r <;> exact ⟨rfl, hlimit, ⟨[], by simp⟩, haligned c.stdout⟩
    · rw [if_neg heof]
      obtain ⟨hlimit, haligned⟩ := @McpStdioLineCodec.feed_frame J c.codec event.data
      cases hfeed : c.codec.feed J event.data with
      | mk r codec =>
        rw [hfeed] at hlimit haligned
        have hreads : Reads c { c with codec, stdout := c.stdout ++ event.data } :=
          ⟨rfl, hlimit, ⟨event.data, rfl⟩, haligned c.stdout⟩
        match r with
        | .error e => exact hreads
        | .ok [] => exact hreads
        | .ok [message] => exact hreads
        | .ok (_ :: _ :: _) => exact hreads

/-- **Waiting for a message only reads.** -/
theorem awaitMessage_reads (events : ℕ) (c : McpStdioChannel σ) :
    Reads c (awaitMessage J duplex events c).2 := by
  induction events generalizing c with
  | zero => exact Reads.refl c
  | succ events ih =>
    rw [awaitMessage]
    obtain ⟨peer, hpeer⟩ : ∃ peer, (readEvent duplex c).2 = { c with peer } := readEvent_frame c
    have hread : Reads c (readEvent duplex c).2 :=
      Reads.of_eq (by rw [hpeer]) (by rw [hpeer]) (by rw [hpeer])
    cases hr : readEvent duplex c with
    | mk r c₁ =>
      rw [hr] at hread
      cases r with
      | error e => exact hread
      | ok event =>
        have hhandle := hread.trans (handleEvent_reads (J := J) event c₁)
        cases hh : handleEvent J event c₁ with
        | mk r c₂ =>
          rw [hh] at hhandle
          match r with
          | .error e => simpa only [hh] using hhandle
          | .ok (some message) => simpa only [hh] using hhandle
          | .ok none => simpa only [hh] using hhandle.trans (ih c₂)

/-- An event after which the loop goes on, or that completes a message: the only line of what was
buffered and what it brought. -/
theorem handleEvent_eq_ok {event : McpStdioEvent} {c c' : McpStdioChannel σ} {found : Option JsonObject}
    (h : handleEvent J event c = (.ok found, c')) : ∃ new, c'.stdout = c.stdout ++ new ∧
      match found with
      | none => c'.codec = { c.codec with buffer := c.codec.buffer ++ new }
      | some m => c.codec.poisoned = false ∧ ∃ line tail,
          Framing.cut lf (c.codec.buffer ++ new) = ([line], tail) ∧
          McpStdioLineCodec.decodeLine J c.codec.maxMessageBytes line = .ok m ∧
          c'.codec = { c.codec with buffer := tail } := by
  rw [handleEvent] at h
  cases hstream : event.stream with
  | stderr =>
    rw [hstream] at h
    obtain ⟨diagnostics, stderrEof, heq⟩ := handleStderr_frame event c
    cases hstderr : handleStderr event c with
    | mk r c₁ =>
      rw [hstderr] at heq
      simp only [hstderr] at h
      cases r with
      | error e => cases congrArg Prod.fst h
      | ok u =>
        obtain ⟨hfound, rfl⟩ := Prod.mk.inj h
        obtain rfl := Except.ok.inj hfound
        simp only at heq
        subst heq
        exact ⟨[], by simp, by simp⟩
  | stdout =>
    rw [hstream] at h
    simp only at h
    by_cases heof : event.eof = true
    · rw [if_pos heof] at h
      cases hfinish : c.codec.finish with
      | mk r codec =>
        rw [hfinish] at h
        cases r <;> cases congrArg Prod.fst h
    rw [if_neg heof] at h
    have hdata : event.data ≠ [] := fun hnil => heof (event.eof_iff.mpr hnil)
    cases hfeed : c.codec.feed J event.data with
    | mk r codec =>
      rw [hfeed] at h
      match r with
      | .error e => cases congrArg Prod.fst h
      | .ok (_ :: _ :: _) => cases congrArg Prod.fst h
      | .ok [] =>
        obtain ⟨-, hlines, hcodec⟩ := McpStdioLineCodec.feed_eq_ok hdata hfeed
        obtain ⟨hfound, rfl⟩ := Prod.mk.inj h
        obtain rfl := Except.ok.inj hfound
        refine ⟨event.data, rfl, ?_⟩
        -- No line was completed, so all of the buffer is tail.
        have hjoin := Framing.join_cut lf (c.codec.buffer ++ event.data)
        rw [List.forall₂_nil_right_iff.mp hlines, Framing.join_nil] at hjoin
        simp only [hcodec, hjoin]
      | .ok [message] =>
        obtain ⟨hpoisoned, hlines, hcodec⟩ := McpStdioLineCodec.feed_eq_ok hdata hfeed
        obtain ⟨hfound, rfl⟩ := Prod.mk.inj h
        obtain rfl := Except.ok.inj hfound
        obtain ⟨line, rest, hdecode, hnil, hcut⟩ := List.forall₂_cons_right_iff.mp hlines
        obtain rfl := List.forall₂_nil_right_iff.mp hnil
        exact ⟨event.data, rfl, hpoisoned, line, _, Prod.ext hcut rfl, hdecode, hcodec⟩

/-- **A message that is returned is the one line that what was buffered and what was read complete.** -/
theorem awaitMessage_eq_ok {events : ℕ} {c c' : McpStdioChannel σ} {m : JsonObject}
    (h : awaitMessage J duplex events c = (.ok m, c')) : c.codec.poisoned = false ∧
      ∃ new line tail, c'.stdout = c.stdout ++ new ∧
        Framing.cut lf (c.codec.buffer ++ new) = ([line], tail) ∧
        McpStdioLineCodec.decodeLine J c.codec.maxMessageBytes line = .ok m := by
  induction events generalizing c with
  | zero => cases congrArg Prod.fst h
  | succ events ih =>
    rw [awaitMessage] at h
    obtain ⟨peer, hpeer⟩ : ∃ peer, (readEvent duplex c).2 = { c with peer } := readEvent_frame c
    cases hr : readEvent duplex c with
    | mk r c₁ =>
      rw [hr] at h hpeer
      cases r with
      | error e => cases congrArg Prod.fst h
      | ok event =>
        simp only at hpeer h
        cases hh : handleEvent J event c₁ with
        | mk r c₂ =>
          rw [hh] at h
          match r with
          | .error e => cases congrArg Prod.fst h
          | .ok (some message) =>
            obtain ⟨hmessage, rfl⟩ := Prod.mk.inj h
            obtain rfl := Except.ok.inj hmessage
            obtain ⟨new, hnew, hpoisoned, line, tail, hcut, hdecode, -⟩ := handleEvent_eq_ok hh
            subst hpeer
            exact ⟨hpoisoned, new, line, tail, hnew, hcut, hdecode⟩
          | .ok none =>
            obtain ⟨new, hnew, hcodec⟩ := handleEvent_eq_ok hh
            obtain ⟨hpoisoned, new', line, tail, hnew', hcut, hdecode⟩ := ih h
            subst hpeer
            simp only at hcodec
            rw [hcodec] at hpoisoned hcut hdecode
            refine ⟨hpoisoned, new ++ new', line, tail, ?_, ?_, hdecode⟩
            · rw [hnew', hnew, List.append_assoc]
            · rw [← List.append_assoc]
              exact hcut

end McpStdioChannel

end Rpr
