import PathwayRuntime.Stdio.Json

/-!
# Which bytes an exchange answers from

* `DecodedFrom`: a message is the last complete line of the `stdout` stream, which begins at this byte.
* `run_aligned`: along every run the buffer is the end of the stream, from the beginning of a line on.
* **`exchange_fresh_iff`**: the message of an exchange was decoded only from bytes read during it
  exactly when nothing was buffered as it began.
* `exchange_stale`: a response that arrives in two parts, the second one an exchange too late.
-/

set_option autoImplicit false

namespace Rpr

namespace McpStdioChannel

variable {σ : Type} {J : JsonModule} {duplex : McpStdioDuplex σ}

/-- The message is decoded from the last complete line of the stream, which begins at byte `start`. -/
def DecodedFrom (J : JsonModule) (maxMessageBytes : ℕ) (stream : Bytes) (start : ℕ) (m : JsonObject) : Prop :=
  ∃ lines line, (Framing.cut lf stream).1 = lines ++ [line] ∧ start = (Framing.join lf lines []).length ∧
    McpStdioLineCodec.decodeLine J maxMessageBytes line = .ok m

/-- The beginning of the last line is determined by the stream. -/
theorem DecodedFrom.unique {maxMessageBytes : ℕ} {stream : Bytes} {start start' : ℕ} {m m' : JsonObject}
    (h : DecodedFrom J maxMessageBytes stream start m) (h' : DecodedFrom J maxMessageBytes stream start' m') :
    start = start' := by
  obtain ⟨lines, line, hcut, rfl, -⟩ := h
  obtain ⟨lines', line', hcut', rfl, -⟩ := h'
  obtain ⟨rfl, -⟩ := List.append_inj' (hcut.symm.trans hcut') rfl
  rfl

/-- **One call keeps the buffer aligned with the stream.** -/
theorem after_aligned (call : Call) {c : McpStdioChannel σ} (h : c.codec.Aligned c.stdout) :
    (after J duplex c call).codec.Aligned (after J duplex c call).stdout := by
  have hsend : ∀ message, (send J duplex message c).2.codec.Aligned (send J duplex message c).2.stdout := by
    intro message
    have hwrote : Wrote J message c (send J duplex message c).2 := send_wrote message c
    obtain ⟨-, hstdout, hcodec⟩ := hwrote
    rw [hstdout]
    rcases hcodec with heq | heq
    · rw [heq]
      exact h
    · rw [heq]
      exact (McpStdioLineCodec.frame_of_fail (McpStdioLineCodec.encode_cases message)).2 _ h
  cases call with
  | send message => exact hsend message
  | exchange message =>
    rw [after, exchange]
    have hs := hsend message
    cases hr : send J duplex message c with
    | mk r c₁ =>
      rw [hr] at hs
      cases r with
      | error e => exact hs
      | ok u =>
        have hreads : Reads c₁ (awaitMessage J duplex c₁.maxEventsPerExchange c₁).2 := awaitMessage_reads _ c₁
        exact hreads.aligned hs

theorem run_aligned (calls : List Call) {c : McpStdioChannel σ} (h : c.codec.Aligned c.stdout) :
    (run J duplex calls c).codec.Aligned (run J duplex calls c).stdout := by
  induction calls generalizing c with
  | nil => exact h
  | cons call calls ih => exact ih (after_aligned call h)

theorem create_aligned (codec : McpStdioLineCodec) (diagnostics : McpStdioDiagnostics) (events : ℕ)
    (peer : σ) : (create codec diagnostics events peer).codec.Aligned
      (create codec diagnostics events peer).stdout :=
  fun _ => ⟨[], by simp, rfl⟩

/-- **Freshness.** In every run of a channel, the message an exchange returns is the last complete line
of all that was read from `stdout`; it lies within the bytes read during the exchange exactly when the
codec buffered nothing as the exchange began. -/
theorem exchange_fresh_iff (J : JsonModule) (duplex : McpStdioDuplex σ) (codec : McpStdioLineCodec)
    (diagnostics : McpStdioDiagnostics) (events : ℕ) (peer : σ) (calls : List Call) (message : PyValue)
    (m : JsonObject) (c c' : McpStdioChannel σ)
    (hc : run J duplex calls (create codec diagnostics events peer) = c)
    (h : exchange J duplex message c = (.ok m, c')) :
    (∃ start, DecodedFrom J c.codec.maxMessageBytes c'.stdout start m ∧ c.stdout.length ≤ start) ↔
      c.codec.buffer = [] := by
  have haligned : c.codec.Aligned c.stdout := hc ▸ run_aligned calls (create_aligned _ _ _ _)
  rw [exchange] at h
  cases hs : send J duplex message c with
  | mk r c₁ =>
    rw [hs] at h
    cases r with
    | error e => cases congrArg Prod.fst h
    | ok u =>
      obtain ⟨-, payload, peer', -, rfl⟩ := send_eq_ok hs
      obtain ⟨hpoisoned, new, line, tail, hnew, hcut, hdecode⟩ := awaitMessage_eq_ok h
      obtain ⟨lines, hlf, hstream⟩ := haligned hpoisoned
      simp only at hnew hcut hdecode
      have hlines : (Framing.cut lf c'.stdout).1 = lines ++ [line] := by
        rw [hnew, hstream, show Framing.join lf lines c.codec.buffer ++ new =
          Framing.join lf lines (c.codec.buffer ++ new) by simp [Framing.join],
          Framing.cut_join hlf, hcut]
      have hfrom : DecodedFrom J c.codec.maxMessageBytes c'.stdout (Framing.join lf lines []).length m :=
        ⟨lines, line, hlines, rfl, hdecode⟩
      have hlength : c.stdout.length = (Framing.join lf lines []).length + c.codec.buffer.length := by
        rw [hstream]
        simp [Framing.join]
      constructor
      · rintro ⟨start, hstart, hle⟩
        obtain rfl := hstart.unique hfrom
        exact List.length_eq_zero_iff.mp (by omega)
      · intro hempty
        exact ⟨_, hfrom, by rw [hlength, hempty]; simp⟩

/-- A server that answers twice; the first byte of the second answer comes with the first one. -/
def earlyByte : McpStdioChannel (List ReadOutcome) :=
  create (.fresh 64 (by decide)) ⟨64, [], false⟩ 4
    [stdoutData 0x7b [0x7d, 0x0a, 0x7b], stdoutData 0x7d [0x0a]]

/-- The exchange returned an empty object. -/
def returnedEmpty (r : Except PyException JsonObject) : Bool :=
  match r with
  | .ok [] => true
  | _ => false

theorem eq_ok_of_returnedEmpty {r : Except PyException JsonObject} (h : returnedEmpty r = true) :
    r = .ok [] := by
  match r with
  | .ok [] => rfl
  | .ok (_ :: _) => cases h
  | .error _ => cases h

/-- A server that answers twice, each time by a line of its own. -/
def onTime : McpStdioChannel (List ReadOutcome) :=
  create (.fresh 64 (by decide)) ⟨64, [], false⟩ 4 [stdoutData 0x7b [0x7d, 0x0a], stdoutData 0x7b [0x7d, 0x0a]]

/-- Then the second exchange is fresh too: its answer begins after the three bytes of the first one. -/
theorem exchange_fresh_second :
    (run JsonPlatform.sample.json scripted [.exchange (.dict [])] onTime).stdout.length = 3 ∧
      ∃ c', exchange JsonPlatform.sample.json scripted (.dict [])
          (run JsonPlatform.sample.json scripted [.exchange (.dict [])] onTime) = (.ok [], c') ∧
        ∃ start, DecodedFrom JsonPlatform.sample.json 64 c'.stdout start [] ∧ 3 ≤ start := by
  have hrun : (run JsonPlatform.sample.json scripted [.exchange (.dict [])] onTime).stdout.length = 3 ∧
      (run JsonPlatform.sample.json scripted [.exchange (.dict [])] onTime).codec.maxMessageBytes = 64 ∧
      (run JsonPlatform.sample.json scripted [.exchange (.dict [])] onTime).codec.buffer = [] ∧
      returnedEmpty (exchange JsonPlatform.sample.json scripted (.dict [])
        (run JsonPlatform.sample.json scripted [.exchange (.dict [])] onTime)).1 = true := by
    decide +kernel
  obtain ⟨hlength, hlimit, hbuffer, hreturned⟩ := hrun
  have hreturned := eq_ok_of_returnedEmpty hreturned
  refine ⟨hlength, _, Prod.ext hreturned rfl, ?_⟩
  rw [← hlimit, ← hlength]
  exact (exchange_fresh_iff JsonPlatform.sample.json scripted (.fresh 64 (by decide)) ⟨64, [], false⟩ 4 _
    [.exchange (.dict [])] (.dict []) [] _ _ rfl (Prod.ext hreturned rfl)).mpr hbuffer

/-- **A stale answer.** The second exchange returns a message whose first byte was read during the first
one. -/
theorem exchange_stale :
    (exchange JsonPlatform.sample.json scripted (.dict [])
        (run JsonPlatform.sample.json scripted [.exchange (.dict [])] earlyByte)).1 = .ok [] ∧
      ¬ ∃ start, DecodedFrom JsonPlatform.sample.json 64 (exchange JsonPlatform.sample.json scripted (.dict [])
          (run JsonPlatform.sample.json scripted [.exchange (.dict [])] earlyByte)).2.stdout start [] ∧
        (run JsonPlatform.sample.json scripted [.exchange (.dict [])] earlyByte).stdout.length ≤ start := by
  have hstream : (exchange JsonPlatform.sample.json scripted (.dict [])
      (run JsonPlatform.sample.json scripted [.exchange (.dict [])] earlyByte)).2.stdout =
      [0x7b, 0x7d, 0x0a, 0x7b, 0x7d, 0x0a] ∧
      (run JsonPlatform.sample.json scripted [.exchange (.dict [])] earlyByte).stdout.length = 4 := by
    decide +kernel
  refine ⟨eq_ok_of_returnedEmpty (by decide +kernel), ?_⟩
  rw [hstream.1, hstream.2]
  rintro ⟨start, hfrom, hle⟩
  -- The last line begins at byte 3.
  obtain ⟨lines, line, hcut, rfl, -⟩ := hfrom
  have hlines : (Framing.cut lf [0x7b, 0x7d, 0x0a, 0x7b, 0x7d, 0x0a]).1 =
      [[0x7b, 0x7d]] ++ [[0x7b, 0x7d]] := by decide
  obtain ⟨rfl, -⟩ := List.append_inj' (hcut.symm.trans hlines) rfl
  exact absurd hle (by decide)

end McpStdioChannel

end Rpr
