import PathwayRuntime.Stdio.Json

/-!
# What the writer accepted

* `Write`: the line a call would write and the bytes the writer accepted of it; `writes`: along a run.
* `run_stdin`: what was accepted is what each call had accepted, in order, a beginning of each line.
* `Framed`: complete lines, and at most one incomplete one, after which nothing is accepted.
* `framed_iff_sealed`, **`framed_iff`**: every run is framed exactly when nothing is accepted after a call
  in which a part of a line was.
* `framed_spliced`: a write that fails in the middle of a line, and the next call.
-/

set_option autoImplicit false

namespace Rpr

/-- `json.dumps` writes no line feed. -/
def JsonModule.OneLine (J : JsonModule) : Prop :=
  ∀ fields text, J.dumps fields = .ok (some text) → '\n' ∉ text

namespace McpStdioChannel

variable {σ : Type} {J : JsonModule} {duplex : McpStdioDuplex σ}

/-- A line that some message encodes to. -/
def EncodedLine (J : JsonModule) (l : Bytes) : Prop :=
  ∃ (codec : McpStdioLineCodec) (message : PyValue), codec.encode J message = (.ok l, codec)

/-- The line of one call, and what the writer accepted of it. -/
structure Write where
  line : Bytes
  accepted : Bytes

/-- What the writer did in one call. -/
def write (J : JsonModule) (duplex : McpStdioDuplex σ) (c : McpStdioChannel σ) (call : Call) : Write :=
  ⟨line J c call.message, (after J duplex c call).stdin.drop c.stdin.length⟩

/-- What the writer did in each call of a run. -/
def writes (J : JsonModule) (duplex : McpStdioDuplex σ) : List Call → McpStdioChannel σ → List Write
  | [], _ => []
  | call :: calls, c => write J duplex c call :: writes J duplex calls (after J duplex c call)

/-- A part of the line was accepted, but not all of it. -/
def Write.Torn (w : Write) : Prop := w.accepted ≠ [] ∧ w.accepted ≠ w.line

/-- After a torn line the writer accepts nothing. -/
def Sealed (ws : List Write) : Prop := ws.Pairwise fun w w' => w.Torn → w'.accepted = []

/-- Complete lines, and at most one incomplete line, after which nothing is accepted. -/
def Framed (J : JsonModule) (duplex : McpStdioDuplex σ) (calls : List Call) (c : McpStdioChannel σ) : Prop :=
  ∀ before rest, calls = before ++ rest → ∃ (lines : List Bytes) (part : Bytes),
    (run J duplex before c).stdin = lines.flatten ++ part ∧ (∀ l ∈ lines, EncodedLine J l) ∧
      (part = [] ∨ (∃ l, EncodedLine J l ∧ part <+: l ∧ part ≠ l) ∧
        (run J duplex calls c).stdin = (run J duplex before c).stdin)

/-! ## One call -/

/-- **A call writes a beginning of its line.** -/
theorem after_stdin (call : Call) (c : McpStdioChannel σ) :
    (after J duplex c call).stdin = c.stdin ++ (write J duplex c call).accepted ∧
      (write J duplex c call).accepted <+: (write J duplex c call).line := by
  have hsend : ∀ message, ∃ k, (send J duplex message c).2.stdin = c.stdin ++ (line J c message).take k := by
    intro message
    have hwrote : Wrote J message c (send J duplex message c).2 := send_wrote message c
    obtain ⟨k, -, hk⟩ := hwrote.stdin
    exact ⟨k, hk⟩
  obtain ⟨k, hk⟩ : ∃ k, (after J duplex c call).stdin = c.stdin ++ (line J c call.message).take k := by
    cases call with
    | send message => exact hsend message
    | exchange message =>
      obtain ⟨k, hk⟩ := hsend message
      refine ⟨k, ?_⟩
      rw [after, exchange]
      cases hs : send J duplex message c with
      | mk r c₁ =>
        rw [hs] at hk
        cases r with
        | error e => exact hk
        | ok u =>
          have hreads : Reads c₁ (awaitMessage J duplex c₁.maxEventsPerExchange c₁).2 := awaitMessage_reads _ c₁
          exact hreads.stdin.trans hk
  have haccepted : (write J duplex c call).accepted = (line J c call.message).take k := by
    rw [write, hk, List.drop_left]
  exact ⟨by rw [haccepted, hk], haccepted ▸ List.take_prefix k _⟩

/-- The line of a call is encoded, unless it is empty. -/
theorem write_line (call : Call) (c : McpStdioChannel σ) : (write J duplex c call).line = [] ∨
    EncodedLine J (write J duplex c call).line := by
  rw [write]
  simp only [line]
  split_ifs
  · exact .inl rfl
  cases hencode : c.codec.encode J call.message with
  | mk r codec =>
    cases r with
    | error e => exact .inl rfl
    | ok l =>
      obtain ⟨rfl, -⟩ := McpStdioLineCodec.encode_eq_ok hencode
      exact .inr ⟨c.codec, call.message, hencode⟩

/-- An encoded line ends with the only line feed it has. -/
theorem EncodedLine.ends (hJ : J.OneLine) {l : Bytes} (h : EncodedLine J l) :
    ∃ payload, lf ∉ payload ∧ l = payload ++ [lf] := by
  obtain ⟨codec, message, hencode⟩ := h
  obtain ⟨-, -, fields, text, -, hdumps, -, rfl⟩ := McpStdioLineCodec.encode_eq_ok hencode
  exact ⟨encodeUtf8 text, fun hlf => hJ fields text hdumps (lf_mem_encodeUtf8.mp hlf), rfl⟩

/-! ## Runs -/

theorem run_stdin (calls : List Call) (c : McpStdioChannel σ) :
    (run J duplex calls c).stdin = c.stdin ++ ((writes J duplex calls c).map Write.accepted).flatten := by
  induction calls generalizing c with
  | nil => simp [run, writes]
  | cons call calls ih =>
    rw [show run J duplex (call :: calls) c = run J duplex calls (after J duplex c call) from rfl, ih,
      (after_stdin call c).1, writes, List.map_cons, List.flatten_cons, List.append_assoc]

theorem run_append (before rest : List Call) (c : McpStdioChannel σ) :
    run J duplex (before ++ rest) c = run J duplex rest (run J duplex before c) :=
  List.foldl_append

theorem writes_append (before rest : List Call) (c : McpStdioChannel σ) :
    writes J duplex (before ++ rest) c =
      writes J duplex before c ++ writes J duplex rest (run J duplex before c) := by
  induction before generalizing c with
  | nil => rfl
  | cons call before ih => exact congrArg _ (ih _)

/-- What was accepted in sealed writes: complete lines, and a torn one after which nothing was. -/
theorem sealed_stdin (calls : List Call) (c : McpStdioChannel σ) (h : Sealed (writes J duplex calls c)) :
    ∃ (lines : List Bytes) (part : Bytes),
      ((writes J duplex calls c).map Write.accepted).flatten = lines.flatten ++ part ∧
      (∀ l ∈ lines, EncodedLine J l) ∧ (part = [] ∨ (∃ l, EncodedLine J l ∧ part <+: l ∧ part ≠ l) ∧
        ∃ w ∈ writes J duplex calls c, w.Torn) := by
  induction calls generalizing c with
  | nil => exact ⟨[], [], rfl, by simp, .inl rfl⟩
  | cons call calls ih =>
    obtain ⟨hfirst, hrest⟩ := List.pairwise_cons.mp h
    have hstarts : (write J duplex c call).accepted <+: (write J duplex c call).line := (after_stdin call c).2
    have hline : (write J duplex c call).line = [] ∨ EncodedLine J (write J duplex c call).line := write_line call c
    rw [writes, List.map_cons, List.flatten_cons]
    by_cases htorn : (write J duplex c call).Torn
    · -- Nothing follows a torn line.
      have hnone : ((writes J duplex calls (after J duplex c call)).map Write.accepted).flatten = [] := by
        rw [List.flatten_eq_nil_iff]
        intro a ha
        obtain ⟨w, hw, rfl⟩ := List.mem_map.mp ha
        exact hfirst w hw htorn
      have hencoded : EncodedLine J (write J duplex c call).line := by
        refine hline.resolve_left fun hnil => htorn.1 ?_
        rw [hnil] at hstarts
        exact List.prefix_nil.mp hstarts
      exact ⟨[], (write J duplex c call).accepted, by rw [hnone]; simp, by simp,
        .inr ⟨⟨_, hencoded, hstarts, htorn.2⟩, _, List.mem_cons_self, htorn⟩⟩
    · obtain ⟨lines, part, heq, hlines, hpart⟩ := ih (after J duplex c call) hrest
      have hpart' : part = [] ∨ (∃ l, EncodedLine J l ∧ part <+: l ∧ part ≠ l) ∧
          ∃ w ∈ write J duplex c call :: writes J duplex calls (after J duplex c call), w.Torn := by
        refine hpart.imp_right fun ⟨hl, w, hw, hwtorn⟩ => ⟨hl, w, List.mem_cons_of_mem _ hw, hwtorn⟩
      by_cases hempty : (write J duplex c call).accepted = []
      · exact ⟨lines, part, by rw [hempty, heq, List.nil_append], hlines, hpart'⟩
      · have hall : (write J duplex c call).accepted = (write J duplex c call).line :=
          not_not.mp fun hne => htorn ⟨hempty, hne⟩
        have hencoded := hline.resolve_left fun hnil => hempty (hall.trans hnil)
        refine ⟨(write J duplex c call).line :: lines, part, ?_,
          List.forall_mem_cons.mpr ⟨hencoded, hlines⟩, hpart'⟩
        rw [hall, heq, List.flatten_cons, List.append_assoc]

/-- Complete lines end with a line feed. -/
theorem getLast_flatten (hJ : J.OneLine) {lines : List Bytes} (h : ∀ l ∈ lines, EncodedLine J l)
    {b : UInt8} (hb : lines.flatten.getLast? = some b) : b = lf := by
  induction lines with
  | nil => cases hb
  | cons l lines ih =>
    obtain ⟨hl, hrest⟩ := List.forall_mem_cons.mp h
    obtain ⟨payload, -, rfl⟩ := hl.ends hJ
    rw [List.flatten_cons, List.getLast?_append] at hb
    cases hlast : lines.flatten.getLast? with
    | none => simpa [hlast, eq_comm] using hb
    | some b' =>
      rw [hlast, Option.some_or, Option.some.injEq] at hb
      exact ih hrest (hlast.trans (congrArg some hb))

/-- A torn line has no line feed. -/
theorem notMem_of_torn (hJ : J.OneLine) {call : Call} {c : McpStdioChannel σ}
    (h : (write J duplex c call).Torn) : lf ∉ (write J duplex c call).accepted := by
  have hstarts : (write J duplex c call).accepted <+: (write J duplex c call).line := (after_stdin call c).2
  have hwritten : (write J duplex c call).line = [] ∨ EncodedLine J (write J duplex c call).line := write_line call c
  rcases hwritten with hnil | hencoded
  · rw [hnil] at hstarts
    exact absurd (List.prefix_nil.mp hstarts) h.1
  · obtain ⟨payload, hlf, hline⟩ := hencoded.ends hJ
    rw [hline, List.prefix_concat_iff] at hstarts
    rcases hstarts with heq | hstarts
    · exact absurd (heq.trans hline.symm) h.2
    · exact fun hm => hlf (hstarts.subset hm)

/-- The bytes of a run are framed exactly when its writes are sealed, if `json.dumps` writes no line feed. -/
theorem framed_iff_sealed (hJ : J.OneLine) (duplex : McpStdioDuplex σ) (codec : McpStdioLineCodec)
    (diagnostics : McpStdioDiagnostics) (events : ℕ) (peer : σ) (calls : List Call) :
    Framed J duplex calls (create codec diagnostics events peer) ↔
      Sealed (writes J duplex calls (create codec diagnostics events peer)) := by
  have hstdin : ∀ cs, (run J duplex cs (create codec diagnostics events peer)).stdin =
      ((writes J duplex cs (create codec diagnostics events peer)).map Write.accepted).flatten :=
    fun cs => run_stdin cs _
  generalize create codec diagnostics events peer = c at hstdin ⊢
  constructor
  · intro hframed
    -- Induction on the calls that are left.
    suffices ∀ rest done, calls = done ++ rest → Sealed (writes J duplex rest (run J duplex done c)) from
      this calls [] rfl
    intro rest
    induction rest with
    | nil => exact fun done _ => List.Pairwise.nil
    | cons call rest ih =>
      intro done hdone
      have hafter : after J duplex (run J duplex done c) call = run J duplex (done ++ [call]) c := by
        rw [run_append]
        rfl
      have hsplit : calls = (done ++ [call]) ++ rest := by rw [hdone, List.append_assoc]; rfl
      refine List.Pairwise.cons (fun w' hw' htorn => ?_) (hafter ▸ ih _ hsplit)
      obtain ⟨lines, part, hlog, hlines, hpart⟩ := hframed (done ++ [call]) rest hsplit
      rw [← hafter, (after_stdin call _).1] at hlog
      rcases hpart with rfl | ⟨-, hsame⟩
      · -- The stream does not end with a line feed.
        exfalso
        obtain ⟨b, hb⟩ := Option.isSome_iff_exists.mp
          (List.getLast?_isSome.mpr htorn.1)
        have hlast : lines.flatten.getLast? = some b := by
          rw [List.append_nil] at hlog
          rw [← hlog, List.getLast?_append, hb, Option.some_or]
        exact notMem_of_torn hJ htorn
          (getLast_flatten hJ hlines hlast ▸ List.mem_of_getLast? hb)
      · rw [hsplit, run_append, run_stdin, List.append_right_eq_self, List.flatten_eq_nil_iff] at hsame
        rw [hafter] at hw'
        exact hsame _ (List.mem_map_of_mem hw')
  · rintro hsealed before rest rfl
    rw [writes_append] at hsealed
    obtain ⟨hbefore, -, hacross⟩ := List.pairwise_append.mp hsealed
    obtain ⟨lines, part, heq, hlines, hpart⟩ := sealed_stdin before c hbefore
    refine ⟨lines, part, (hstdin before).trans heq, hlines, hpart.imp_right fun ⟨hl, w, hw, htorn⟩ => ⟨hl, ?_⟩⟩
    rw [run_append, run_stdin, List.append_right_eq_self, List.flatten_eq_nil_iff]
    intro a ha
    obtain ⟨w', hw', rfl⟩ := List.mem_map.mp ha
    exact hacross w hw w' hw' htorn

/-- **Framing integrity.** Every run of a new channel has written complete lines and at most one incomplete
line with nothing after it, at each of its moments, exactly when the writer accepts nothing after a call in
which it accepted a part of the line but not all of it. -/
theorem framed_iff (py : JsonPlatform) (duplex : McpStdioDuplex σ) (codec : McpStdioLineCodec)
    (diagnostics : McpStdioDiagnostics) (events : ℕ) (peer : σ) (calls : List Call) :
    Framed py.json duplex calls (create codec diagnostics events peer) ↔
      Sealed (writes py.json duplex calls (create codec diagnostics events peer)) :=
  framed_iff_sealed (fun _ _ h => json_oneLine h) duplex codec diagnostics events peer calls

/-- A peer whose writes go as listed, and then raise. -/
def stutter : McpStdioDuplex (List WriteOutcome) where
  writeStdin _ outcomes :=
    match outcomes with
    | [] => (.raised (.ofClass "BrokenPipeError" ["ConnectionError", "OSError"] "broken"), [])
    | outcome :: outcomes => (outcome, outcomes)
  readEvent outcomes := (.invalid, outcomes)

theorem sixtyFour_pos : 0 < 64 := by decide

/-- A new channel whose writes go as listed. -/
def stuttering (outcomes : List WriteOutcome) : McpStdioChannel (List WriteOutcome) :=
  create (.fresh 64 sixtyFour_pos) ⟨64, [], false⟩ 4 outcomes

/-- Two messages sent. -/
def twoSends : List Call := [.send (.dict []), .send (.dict [])]

/-- A pipe that breaks for good within the second line. -/
theorem framed_broken : Framed JsonPlatform.sample.json stutter (twoSends ++ twoSends)
    (stuttering [.wrote 2, .wrote 1, .wrote 1]) := by
  refine (framed_iff .sample stutter (.fresh 64 sixtyFour_pos)
    ⟨64, [], false⟩ 4 [.wrote 2, .wrote 1, .wrote 1] _).mpr ?_
  have hwrites : (writes JsonPlatform.sample.json stutter (twoSends ++ twoSends)
      (stuttering [.wrote 2, .wrote 1, .wrote 1])).map (fun w => (w.line, w.accepted)) =
      [([0x7b, 0x7d, 0x0a], [0x7b, 0x7d, 0x0a]), ([0x7b, 0x7d, 0x0a], [0x7b]),
        ([0x7b, 0x7d, 0x0a], []), ([0x7b, 0x7d, 0x0a], [])] := by
    decide +kernel
  have hpairs : ((writes JsonPlatform.sample.json stutter (twoSends ++ twoSends)
      (stuttering [.wrote 2, .wrote 1, .wrote 1])).map fun w => (w.line, w.accepted)).Pairwise
      fun w w' => w.2 ≠ [] ∧ w.2 ≠ w.1 → w'.2 = [] := by
    rw [hwrites]
    decide
  exact List.pairwise_map.mp hpairs

/-- **A write that fails in the middle of a line is followed by the next message on the same line.** -/
theorem framed_spliced : ¬ Framed JsonPlatform.sample.json stutter twoSends
    (stuttering [.wrote 1, .raised (.ofClass "TimeoutError" ["OSError"] "timed out"), .wrote 3]) := by
  intro h
  have hlogs : (run JsonPlatform.sample.json stutter [.send (.dict [])] (stuttering
        [.wrote 1, .raised (.ofClass "TimeoutError" ["OSError"] "timed out"), .wrote 3])).stdin = [0x7b] ∧
      (run JsonPlatform.sample.json stutter twoSends (stuttering
        [.wrote 1, .raised (.ofClass "TimeoutError" ["OSError"] "timed out"), .wrote 3])).stdin =
          [0x7b, 0x7b, 0x7d, 0x0a] := by
    decide +kernel
  obtain ⟨lines, part, hlog, hlines, hpart⟩ := h [.send (.dict [])] [.send (.dict [])] rfl
  rw [hlogs.1] at hlog hpart
  rcases hpart with rfl | ⟨-, hsame⟩
  · rw [List.append_nil] at hlog
    have := getLast_flatten (fun _ _ h => json_oneLine h) hlines (b := 0x7b) (by rw [← hlog]; rfl)
    exact absurd this (by decide)
  · rw [hlogs.2] at hsame
    exact absurd hsame (by decide)

end McpStdioChannel

end Rpr
