import PathwayRuntime.Mcp.Answers
import PathwayRuntime.Mcp.Honest
import PathwayRuntime.Stdio.RoundTrip

/-!
# A session with the read-only server

* `writeAll_line`: a line written in pieces is one line for the process.
* `awaitMessage_arrives`: an answer that arrives in pieces, among the bytes of `stderr`, is one message.
* `Carries`: a message fits on a line; `takeLine_answers`: the process answers such a line.
* `Ready`: a channel between two calls; `send_ready`, `exchange_ready`: one call.
* `Smooth`: every message fits on a line, every request is answered and no notification is.
* **`conversation_direct`**: what a session returns that talks to the process through its channel is what `handle`
  makes of its calls directly.
-/

set_option autoImplicit false

namespace Rpr

open McpStdioChannel

variable {py : JsonPlatform} {host : ServerHost}

/-! ## Writing a line -/

/-- A process that runs takes a part of what is written to it. -/
theorem writeStdin_running {data : Bytes} {p : ServerProcess} (h : p.running = true) :
    host.duplex.writeStdin data p = (.wrote (host.accepts data),
      (Framing.cut lf (p.input ++ data.take (host.accepts data))).1.foldl host.takeLine
        { p with input := (Framing.cut lf (p.input ++ data.take (host.accepts data))).2 }) := by
  simp [ServerHost.duplex, h]

/-- **A line written in pieces is one line for the process.** -/
theorem writeAll_line (hhost : host.Documented py) {fuel : ℕ} {before rest : Bytes} {c : McpStdioChannel ServerProcess}
    (hbefore : lf ∉ before) (hrest : lf ∉ rest) (hfuel : rest.length + 1 ≤ fuel) (hrunning : c.peer.running = true)
    (hinput : c.peer.input = before) : writeAll host.duplex fuel (rest ++ [lf]) c = (.ok (), { c with
      peer := host.takeLine { c.peer with input := [] } (before ++ rest), stdin := c.stdin ++ (rest ++ [lf]) }) := by
  induction fuel generalizing before rest c with
  | zero => exact absurd hfuel (Nat.not_succ_le_zero _)
  | succ fuel ih =>
    have hne : rest ++ [lf] ≠ [] := by simp
    obtain ⟨hpos, hle⟩ := hhost.accepts _ hne
    have hcount : ¬ ((host.accepts (rest ++ [lf]) : ℤ) ≤ 0 ∨
        ((rest ++ [lf]).length : ℤ) < host.accepts (rest ++ [lf])) := by omega
    rw [writeAll, if_neg hne, writeStdin_running hrunning, hinput]
    generalize host.accepts (rest ++ [lf]) = n at hpos hle hcount
    dsimp only
    rw [if_neg hcount, Int.toNat_natCast]
    by_cases hall : n = rest.length + 1
    · -- The last piece ends the line.
      have htake : (rest ++ [lf]).take n = rest ++ [lf] := List.take_of_length_le (by simp [hall])
      have hdrop : (rest ++ [lf]).drop n = [] := List.drop_of_length_le (by simp [hall])
      have hcut : Framing.cut lf (before ++ (rest ++ [lf])) = ([before ++ rest], []) := by
        rw [← List.append_assoc, Framing.cut_line fun h => (List.mem_append.mp h).elim hbefore hrest]
        rfl
      rw [htake, hdrop, hcut]
      cases fuel <;> rfl
    · have hn : n ≤ rest.length := by
        rw [List.length_append, List.length_singleton] at hle
        omega
      have htake : (rest ++ [lf]).take n = rest.take n := List.take_append_of_le_length hn
      have hdrop : (rest ++ [lf]).drop n = rest.drop n ++ [lf] := List.drop_append_of_le_length hn
      have hpiece : lf ∉ before ++ rest.take n :=
        fun h => (List.mem_append.mp h).elim hbefore fun h => hrest (List.mem_of_mem_take h)
      have hshorter : (rest.drop n).length + 1 ≤ fuel := by
        rw [List.length_drop]
        omega
      rw [htake, hdrop, Framing.cut_of_notMem hpiece]
      have hlater : lf ∉ rest.drop n := fun h => hrest (List.mem_of_mem_drop h)
      refine (ih (c := { c with
        peer := { c.peer with input := before ++ rest.take n }
        stdin := c.stdin ++ rest.take n }) hpiece hlater hshorter hrunning rfl).trans ?_
      dsimp only [List.foldl_nil]
      rw [List.append_assoc, List.take_append_drop, List.append_assoc, ← List.append_assoc (rest.take n),
        List.take_append_drop]

/-! ## Reading an answer -/

/-- Events of `stderr` only. -/
def Leftover (events : List McpStdioEvent) : Prop := ∀ e ∈ events, e.stream = .stderr ∧ e.eof = false

theorem stdoutBytes_append (events events' : List McpStdioEvent) :
    stdoutBytes (events ++ events') = stdoutBytes events ++ stdoutBytes events' := by
  rw [stdoutBytes, List.filter_append, List.flatMap_append]
  rfl

theorem Leftover.stdoutBytes {events : List McpStdioEvent} (h : Leftover events) : stdoutBytes events = [] := by
  rw [Rpr.stdoutBytes, List.filter_eq_nil_iff.mpr fun e he => by simp [(h e he).1]]
  rfl

/-- Events without bytes of `stdout` are events of `stderr`. -/
theorem leftover_of_stdoutBytes {events : List McpStdioEvent} (heof : ∀ e ∈ events, e.eof = false)
    (h : stdoutBytes events = []) : Leftover events := by
  intro e he
  refine ⟨?_, heof e he⟩
  cases hstream : e.stream with
  | stderr => rfl
  | stdout =>
    have hmem : e ∈ events.filter fun e => e.stream = .stdout := List.mem_filter.mpr ⟨he, by simp [hstream]⟩
    have hdata : e.data = [] := List.flatMap_eq_nil_iff.mp h e hmem
    exact absurd (e.eof_iff.mpr hdata) (by simp [heof e he])

/-- A chunk that does not end the line is buffered. -/
theorem feed_begins {J : JsonModule} {codec : McpStdioLineCodec} {chunk : Bytes} (hpoisoned : codec.poisoned = false)
    (hchunk : chunk ≠ []) (hlf : lf ∉ codec.buffer ++ chunk)
    (hlength : (codec.buffer ++ chunk).length ≤ codec.maxMessageBytes) :
    codec.feed J chunk = (.ok [], { codec with buffer := codec.buffer ++ chunk }) := by
  have hlong : ¬ (lf ∉ codec.buffer ++ chunk ∧ (codec.buffer ++ chunk).length > codec.maxMessageBytes) :=
    fun h => absurd h.2 (Nat.not_lt.mpr hlength)
  rw [McpStdioLineCodec.feed, if_neg (by simp [hpoisoned]), if_neg hchunk]
  dsimp only
  rw [if_neg hlong, Framing.cut_of_notMem hlf]
  dsimp only [McpStdioLineCodec.drain]
  rw [if_neg (Nat.not_lt.mpr hlength)]

/-- The chunk that ends it completes the message. -/
theorem feed_ends {J : JsonModule} {codec : McpStdioLineCodec} {chunk line : Bytes} {m : JsonObject}
    (hpoisoned : codec.poisoned = false) (hchunk : chunk ≠ []) (hline : codec.buffer ++ chunk = line ++ [lf])
    (hlf : lf ∉ line) (hdecode : McpStdioLineCodec.decodeLine J codec.maxMessageBytes line = .ok m) :
    codec.feed J chunk = (.ok [m], { codec with buffer := [] }) := by
  have hcut : Framing.cut lf (line ++ [lf]) = ([line], []) := Framing.cut_line hlf []
  rw [McpStdioLineCodec.feed, if_neg (by simp [hpoisoned]), if_neg hchunk]
  dsimp only
  rw [hline, if_neg (by simp), hcut]
  simp [McpStdioLineCodec.drain, hdecode]

/-- **An answer that arrives in pieces**, among bytes of `stderr`, is one message. -/
theorem awaitMessage_arrives {J : JsonModule} {fuel : ℕ} {c : McpStdioChannel ServerProcess} {line : Bytes}
    {m : JsonObject} (hpoisoned : c.codec.poisoned = false) (hstderr : c.stderrEof = false)
    (heof : ∀ e ∈ c.peer.output, e.eof = false) (hbytes : c.codec.buffer ++ stdoutBytes c.peer.output = line ++ [lf])
    (hlf : lf ∉ line) (hlength : line.length ≤ c.codec.maxMessageBytes)
    (hdecode : McpStdioLineCodec.decodeLine J c.codec.maxMessageBytes line = .ok m)
    (hbuffer : lf ∉ c.codec.buffer) (hfuel : c.peer.output.length ≤ fuel) :
    ∃ rest c', awaitMessage J host.duplex fuel c = (.ok m, c') ∧ rest <:+ c.peer.output ∧ Leftover rest ∧
      c'.peer = { c.peer with output := rest } ∧ c'.codec = { c.codec with buffer := [] } ∧
      c'.stdoutEof = c.stdoutEof ∧ c'.stderrEof = false ∧ c'.maxEventsPerExchange = c.maxEventsPerExchange := by
  induction fuel generalizing c with
  | zero =>
    have hnone : c.peer.output = [] := List.length_eq_zero_iff.mp (Nat.le_zero.mp hfuel)
    have hmem : lf ∈ c.codec.buffer := by
      have hline : c.codec.buffer = line ++ [lf] := by simpa [hnone, stdoutBytes] using hbytes
      simp [hline]
    exact absurd hmem hbuffer
  | succ fuel ih =>
    cases houtput : c.peer.output with
    | nil =>
      have hline : c.codec.buffer = line ++ [lf] := by simpa [houtput, stdoutBytes] using hbytes
      exact absurd (by simp [hline]) hbuffer
    | cons event events =>
      have hread : readEvent host.duplex c = (.ok event, { c with peer := { c.peer with output := events } }) := by
        rw [readEvent]
        simp only [ServerHost.duplex, houtput]
      rw [houtput] at heof hfuel hbytes
      obtain ⟨hevent, hevents⟩ := List.forall_mem_cons.mp heof
      have hshorter : events.length ≤ fuel := Nat.le_of_succ_le_succ hfuel
      rw [awaitMessage, hread]
      dsimp only
      rw [handleEvent]
      cases hstream : event.stream with
      | stderr =>
        have hbytes' : c.codec.buffer ++ stdoutBytes events = line ++ [lf] := by
          simpa [stdoutBytes, hstream] using hbytes
        dsimp only
        rw [handleStderr, if_neg (by simp [hevent]), if_neg (by simp [hstderr])]
        obtain ⟨rest, c', hawait, hsuffix, h⟩ := ih (c := { c with
          peer := { c.peer with output := events }, diagnostics := c.diagnostics.feed event.data })
          hpoisoned hstderr hevents hbytes' hlength hdecode hbuffer hshorter
        exact ⟨rest, c', hawait, hsuffix.trans (List.suffix_cons event events), h⟩
      | stdout =>
        have hchunk : event.data ≠ [] := fun h => absurd (event.eof_iff.mpr h) (by simp [hevent])
        have hwhole : (c.codec.buffer ++ event.data) ++ stdoutBytes events = line ++ [lf] := by
          simpa [stdoutBytes, hstream] using hbytes
        have hbytes' := hwhole
        dsimp only
        rw [if_neg (by simp [hevent])]
        rcases List.eq_nil_or_concat (stdoutBytes events) with hrest | ⟨xs, x, hrest⟩
        · -- The chunk ends the line.
          rw [hrest, List.append_nil] at hbytes'
          rw [feed_ends hpoisoned hchunk hbytes' hlf hdecode]
          exact ⟨events, _, rfl, List.suffix_cons event events, leftover_of_stdoutBytes hevents hrest, rfl, rfl,
            rfl, hstderr, rfl⟩
        · rw [hrest, List.concat_eq_append, ← List.append_assoc] at hbytes'
          have hline := (List.append_inj' hbytes' rfl).1
          have hpiece : lf ∉ c.codec.buffer ++ event.data := fun h => hlf (hline ▸ List.mem_append_left xs h)
          have hshort : (c.codec.buffer ++ event.data).length ≤ c.codec.maxMessageBytes :=
            Nat.le_trans (hline ▸ by simp) hlength
          rw [feed_begins hpoisoned hchunk hpiece hshort]
          obtain ⟨rest, c', hawait, hsuffix, h⟩ := ih (c := { c with
            peer := { c.peer with output := events }
            codec := { c.codec with buffer := c.codec.buffer ++ event.data }
            stdout := c.stdout ++ event.data })
            hpoisoned hstderr hevents hwhole hlength hdecode hpiece hshorter
          exact ⟨rest, c', hawait, hsuffix.trans (List.suffix_cons event events), h⟩

/-! ## Messages on lines -/

/-- A message that fits on a line of this length. -/
structure Carries (py : JsonPlatform) (limit : ℕ) (message : JsonObject) : Prop where
  portable : McpStdioLineCodec.Portable py (PyValue.ofJsonFields message)
  fits : ∃ text, dumps py (PyValue.ofJsonFields message) = .ok (some text) ∧ (encodeUtf8 text).length ≤ limit

/-- The text of a message. -/
structure TextOf (py : JsonPlatform) (limit : ℕ) (message : JsonObject) (text : List Char) : Prop where
  dumped : dumps py (PyValue.ofJsonFields message) = .ok (some text)
  length : (encodeUtf8 text).length ≤ limit
  oneLine : lf ∉ encodeUtf8 text
  noBom : ¬ utf8Bom <+: encodeUtf8 text
  brace : '{' ∈ text
  decoded : McpStdioLineCodec.decodeLine py.json limit (encodeUtf8 text) = .ok message
  loaded : loads py defaultHooks text = .ok (.obj message)

theorem Carries.text {limit : ℕ} {message : JsonObject} (h : Carries py limit message) :
    ∃ text, TextOf py limit message text := by
  obtain ⟨text, hdumps, hlength⟩ := h.fits
  have hbrace : '{' ∈ text := by
    obtain ⟨n, xs, -, -, rfl⟩ := writeMembers_of_object hdumps
    exact List.mem_cons_self
  have hread : ∀ {hooks : JsonHooks}, hooks.KeepsObjects → loads py hooks text = .ok (.obj message) := by
    intro hooks hhooks
    obtain ⟨fields, hloads, hfields⟩ :=
      loads_dumps hhooks hdumps h.portable.depth h.portable.textKeys h.portable.proper
    rw [listedFields_ofJson] at hfields
    rw [hloads, ofJsonFields_inj fields hfields]
  have hne : encodeUtf8 text ≠ [] := by
    obtain ⟨tail, htail⟩ := json_first hdumps
    rw [htail]
    exact List.cons_ne_nil _ _
  exact ⟨text, hdumps, hlength, fun hlf => json_oneLine hdumps (lf_mem_encodeUtf8.mp hlf), json_noBom hdumps, hbrace,
    McpStdioLineCodec.decodeLine_eq_ok.mpr ⟨hne, hlength, json_noBom hdumps, text, decodeUtf8_encodeUtf8 text,
      hread McpStdioLineCodec.hooks_keepsObjects⟩, hread defaultHooks_keepsObjects⟩

/-- A line with a brace is not blank. -/
theorem turn_not_blank {handled : ℕ} {text : List Char} (h : '{' ∈ text) : (host.turn handled text).blank = false := by
  have hmem : '{' ∈ (String.ofList (text ++ ['\n'])).toList := by
    rw [String.toList_ofList]
    exact List.mem_append_left _ h
  have hne : (String.ofList (List.dropWhile isSpace (List.dropWhile isSpace
      (String.ofList (text ++ ['\n'])).toList).reverse).reverse).length ≠ 0 := by
    rw [String.length_ofList, Ne, List.length_eq_zero_iff]
    exact stripped_ne_nil hmem (by decide)
  exact decide_eq_false hne

section Line

variable (hhost : host.Documented py) {limit : ℕ} {message : JsonObject} {text : List Char}
  (htext : TextOf py limit message text) {p : ServerProcess} (hrunning : p.running = true)
  {server : ReadOnlyRprMcpServer}

include hhost htext hrunning

/-- A line with a message that is not answered. -/
theorem takeLine_quiet (h : p.server.answer host.json (host.readModel p.handled) message = (none, server)) :
    host.takeLine p (encodeUtf8 text) = { p with server, handled := p.handled + 1 } := by
  have hloads := hhost.loads text (.obj message) htext.loaded
  have hrespond := ReadOnlyRprMcpServer.respond_message (M := host.readModel p.handled) hloads p.server
  rw [ServerHost.takeLine, if_neg (by simp [hrunning]), decodeUtf8_encodeUtf8]
  dsimp only
  rw [turn_not_blank htext.brace, if_neg Bool.false_ne_true]
  dsimp only [ServerHost.turn]
  rw [hrespond, h]

/-- **A line with a message that is answered.** -/
theorem takeLine_answers {j : Json} {answer : List Char}
    (h : p.server.answer host.json (host.readModel p.handled) message = (some j, server))
    (hdumps : host.dumps j = some answer) : host.takeLine p (encodeUtf8 text) = { p with
      server
      handled := p.handled + 1
      output := p.output ++ host.arrives p.handled (encodeUtf8 answer ++ [lf]) } := by
  have hloads := hhost.loads text (.obj message) htext.loaded
  have hrespond := ReadOnlyRprMcpServer.respond_message (M := host.readModel p.handled) hloads p.server
  rw [ServerHost.takeLine, if_neg (by simp [hrunning]), decodeUtf8_encodeUtf8]
  dsimp only
  rw [turn_not_blank htext.brace, if_neg Bool.false_ne_true]
  dsimp only [ServerHost.turn]
  rw [hrespond, h]
  dsimp only
  rw [hdumps]

end Line

/-! ## One call -/

/-- A channel between two calls: nothing is buffered on either side, and of what arrived only bytes of `stderr` are
left, no more than half as many events as an exchange may read. -/
structure Ready (limit events : ℕ) (s : ReadOnlyRprMcpServer) (handled : ℕ) (c : McpStdioChannel ServerProcess) :
    Prop where
  healthy : c.codec.poisoned = false
  buffer : c.codec.buffer = []
  limited : c.codec.maxMessageBytes = limit
  bounded : c.maxEventsPerExchange = events
  stdoutOpen : c.stdoutEof = false
  stderrOpen : c.stderrEof = false
  running : c.peer.running = true
  server : c.peer.server = s
  handled : c.peer.handled = handled
  input : c.peer.input = []
  leftover : Leftover c.peer.output
  short : 2 * c.peer.output.length ≤ events

variable {limit events handled : ℕ} {s : ReadOnlyRprMcpServer} {c : McpStdioChannel ServerProcess}
  {message : JsonObject} {text : List Char}

/-- A message that is sent is a line the process handles. -/
theorem send_message (hhost : host.Documented py) (hready : Ready limit events s handled c)
    (htext : TextOf py limit message text) :
    send py.json host.duplex (.dict (PyValue.ofJsonFields message)) c = (.ok (), { c with
      peer := host.takeLine c.peer (encodeUtf8 text), stdin := c.stdin ++ (encodeUtf8 text ++ [lf]) }) := by
  have hencode : c.codec.encode py.json (.dict (PyValue.ofJsonFields message)) =
      (.ok (encodeUtf8 text ++ [lf]), c.codec) := by
    have hdumps : py.json.dumps (PyValue.ofJsonFields message) = .ok (some text) := htext.dumped
    have hlength : ¬ (encodeUtf8 text).length > c.codec.maxMessageBytes := by
      rw [hready.limited]
      exact Nat.not_lt.mpr htext.length
    rw [McpStdioLineCodec.encode, if_neg (by simp [hready.healthy]), hdumps]
    dsimp only
    rw [if_neg htext.noBom, if_neg hlength]
  have hpeer : { c.peer with input := [] } = c.peer := by rw [← hready.input]
  rw [send, if_neg (by simp [hready.stdoutOpen]), writeMessage, hencode]
  dsimp only
  rw [writeAll_line hhost List.not_mem_nil htext.oneLine (by simp) hready.running hready.input]
  simp only [hpeer, List.nil_append]

/-- **One notification** that is not answered. -/
theorem send_ready (hhost : host.Documented py) (hready : Ready limit events s handled c)
    (hmessage : Carries py limit message) {s' : ReadOnlyRprMcpServer}
    (hanswer : s.answer host.json (host.readModel handled) message = (none, s')) :
    ∃ c', send py.json host.duplex (.dict (PyValue.ofJsonFields message)) c = (.ok (), c') ∧
      Ready limit events s' (handled + 1) c' := by
  obtain ⟨text, htext⟩ := hmessage.text
  refine ⟨_, send_message hhost hready htext, ?_⟩
  rw [← hready.server, ← hready.handled] at hanswer
  rw [takeLine_quiet hhost htext hready.running hanswer]
  exact { hready with server := rfl, handled := congrArg (· + 1) hready.handled }

/-- **One request** and its answer. -/
theorem exchange_ready (hhost : host.Documented py) (hready : Ready limit events s handled c)
    (harrives : ∀ n bytes, bytes.length ≤ limit + 1 → 2 * (host.arrives n bytes).length ≤ events)
    (hmessage : Carries py limit message) {s' : ReadOnlyRprMcpServer} {fields : JsonObject}
    (hanswer : s.answer host.json (host.readModel handled) message = (some (.obj fields), s'))
    (hfields : Carries py limit fields) :
    ∃ c', McpStdioChannel.exchange py.json host.duplex (.dict (PyValue.ofJsonFields message)) c = (.ok fields, c') ∧
      Ready limit events s' (handled + 1) c' := by
  obtain ⟨text, htext⟩ := hmessage.text
  obtain ⟨answer, hanswerText⟩ := hfields.text
  let arrived := host.arrives handled (encodeUtf8 answer ++ [lf])
  have hpeer : host.takeLine c.peer (encodeUtf8 text) = { c.peer with
      server := s', handled := handled + 1, output := c.peer.output ++ arrived } := by
    rw [← hready.server] at hanswer
    obtain rfl := hready.handled
    exact takeLine_answers hhost htext hready.running hanswer (hhost.dumps fields answer hanswerText.dumped)
  obtain ⟨harrivedBytes, harrivedEof⟩ := hhost.arrives handled (encodeUtf8 answer ++ [lf])
  have hshort : 2 * arrived.length ≤ events := harrives handled _ (by simpa using hanswerText.length)
  have hfuel : (c.peer.output ++ arrived).length ≤ c.maxEventsPerExchange := by
    have := hready.short
    rw [hready.bounded, List.length_append]
    omega
  let c₀ : McpStdioChannel ServerProcess := { c with
    peer := { c.peer with server := s', handled := handled + 1, output := c.peer.output ++ arrived }
    stdin := c.stdin ++ (encodeUtf8 text ++ [lf]) }
  have hbytes : c₀.codec.buffer ++ stdoutBytes c₀.peer.output = encodeUtf8 answer ++ [lf] := by
    rw [show c₀.codec.buffer = [] from hready.buffer, show c₀.peer.output = c.peer.output ++ arrived from rfl,
      stdoutBytes_append, hready.leftover.stdoutBytes, List.nil_append, List.nil_append]
    exact harrivedBytes
  have heof : ∀ e ∈ c₀.peer.output, e.eof = false := by
    intro e he
    rcases List.mem_append.mp he with he | he
    · exact (hready.leftover e he).2
    · exact harrivedEof e he
  obtain ⟨rest, c', hawait, hsuffix, hrest, hpeer', hcodec, hstdout, hstderr, hevents⟩ :=
    awaitMessage_arrives (J := py.json) (m := fields) (c := c₀) hready.healthy hready.stderrOpen heof
      hbytes hanswerText.oneLine (hready.limited ▸ hanswerText.length) (hready.limited ▸ hanswerText.decoded)
      (hready.buffer ▸ List.not_mem_nil) hfuel
  have hexchange : McpStdioChannel.exchange py.json host.duplex (.dict (PyValue.ofJsonFields message)) c =
      (.ok fields, c') := by
    rw [McpStdioChannel.exchange, send_message hhost hready htext, hpeer]
    exact hawait
  -- What is left arrived after the answer.
  have hlength : rest.length ≤ arrived.length := by
    rcases List.suffix_or_suffix_of_suffix hsuffix (List.suffix_append c.peer.output arrived) with h | h
    · exact h.length_le
    · obtain ⟨more, rfl⟩ := h
      have hnone := hrest.stdoutBytes
      rw [stdoutBytes_append, show stdoutBytes arrived = _ from harrivedBytes] at hnone
      simp at hnone
  refine ⟨c', hexchange, ?_⟩
  constructor
  case healthy => rw [hcodec]; exact hready.healthy
  case buffer => rw [hcodec]
  case limited => rw [hcodec]; exact hready.limited
  case bounded => rw [hevents]; exact hready.bounded
  case stdoutOpen => rw [hstdout]; exact hready.stdoutOpen
  case stderrOpen => exact hstderr
  case running => rw [hpeer']; exact hready.running
  case server => rw [hpeer']
  case handled => rw [hpeer']
  case input => rw [hpeer']; exact hready.input
  case leftover => rw [hpeer']; exact hrest
  case short => rw [hpeer']; exact Nat.le_trans (Nat.mul_le_mul_left 2 hlength) hshort

/-! ## The conversation -/

/-- Every message fits on a line, every request is answered by one that does, and no notification is answered. A method
that is blank is no message. -/
def Smooth (py : JsonPlatform) (limit : ℕ) (host : ServerHost) : List RpcCall → ℕ → ℕ → ReadOnlyRprMcpServer → Prop
  | [], _, _, _ => True
  | call :: calls, id, handled, s =>
    if call.method.strip.length = 0 then Smooth py limit host calls id handled s
    else
      let (answer, s') := s.answer host.json (host.readModel handled) (call.message id)
      Carries py limit (call.message id) ∧
        match call with
        | .request .. =>
          (∃ fields, answer = some (.obj fields) ∧ Carries py limit fields) ∧
            Smooth py limit host calls (id + 1) (handled + 1) s'
        | .notify .. => answer = none ∧ Smooth py limit host calls id (handled + 1) s'

section Calls

open McpJsonRpcSession

variable (objects : PyObjects) {κ : Type} {channel : McpJsonRpcChannel κ} {k k' : κ} {id : ℕ} {method : PyText}
  {params : JsonObject}

/-- A method that is blank is refused. -/
theorem perform_blank {call : RpcCall} (h : call.method.strip.length = 0) (σ : McpJsonRpcSession κ) :
    perform objects channel call.toCall σ =
      (⟨call.toCall, none, .error (mcpTransportError "JSON-RPC method must be a non-empty string")⟩, σ) := by
  have hmethod : methodValue call.method = _ := if_pos h
  cases call with
  | request method params =>
    simp only [RpcCall.method] at hmethod
    simp only [RpcCall.toCall, perform, request, hmethod]
    rfl
  | notify method params =>
    simp only [RpcCall.method] at hmethod
    simp only [RpcCall.toCall, perform, notify, hmethod]
    rfl

/-- A request that is answered. -/
theorem perform_request (hmethod : ¬ method.strip.length = 0) {j : Json}
    (h : channel.exchange (PyValue.ofJsonFields ((RpcCall.request method params).message id)) k =
      (.ok (.ofJson j), k')) :
    (perform objects channel (RpcCall.request method params).toCall ⟨id, k⟩).1.returned =
        (validateResponse objects (.ofJson j) id).map some ∧
      (perform objects channel (RpcCall.request method params).toCall ⟨id, k⟩).2 = ⟨id + 1, k'⟩ := by
  have hvalue : methodValue method = .ok method.strip := if_neg hmethod
  have henvelope : channel.exchange (requestEnvelope id method.strip (PyValue.ofJsonFields params)) k =
      (.ok (.ofJson j), k') := h
  simp only [RpcCall.toCall, perform, request, hvalue, paramsValue, McpJsonRpcSession.exchange, henvelope]
  exact ⟨trivial, trivial⟩

/-- A notification that is sent. -/
theorem perform_notify (hmethod : ¬ method.strip.length = 0)
    (h : channel.send (PyValue.ofJsonFields ((RpcCall.notify method params).message id)) k = (.ok (), k')) :
    (perform objects channel (RpcCall.notify method params).toCall ⟨id, k⟩).1.returned = .ok none ∧
      (perform objects channel (RpcCall.notify method params).toCall ⟨id, k⟩).2 = ⟨id, k'⟩ := by
  have hvalue : methodValue method = .ok method.strip := if_neg hmethod
  have henvelope : channel.send (notifyEnvelope method.strip (PyValue.ofJsonFields params)) k = (.ok (), k') := h
  simp only [RpcCall.toCall, perform, notify, hvalue, paramsValue, henvelope]
  exact ⟨rfl, trivial⟩

/-- **A session with the process is a session with the server.** A channel between two calls, a documented process,
and answers that arrive, with what comes on `stderr`, in no more than half as many pieces as an exchange may read: the
calls of a smooth session return what `handle` makes of them directly. -/
theorem conversation_direct (py : JsonPlatform) (host : ServerHost) (hhost : host.Documented py)
    (limit events : ℕ) (harrives : ∀ n bytes, bytes.length ≤ limit + 1 → 2 * (host.arrives n bytes).length ≤ events)
    (calls : List RpcCall) (id handled : ℕ) (s : ReadOnlyRprMcpServer) (c : McpStdioChannel ServerProcess)
    (hready : Ready limit events s handled c) (hsmooth : Smooth py limit host calls id handled s) :
    (records objects (asChannel py.json host.duplex) (calls.map RpcCall.toCall) ⟨id, c⟩).map Record.returned =
      directs host calls id handled s := by
  induction calls generalizing id handled s c with
  | nil => rfl
  | cons call calls ih =>
    rw [List.map_cons, records, List.map_cons, directs]
    rw [Smooth] at hsmooth
    by_cases hblank : call.method.strip.length = 0
    · rw [if_pos hblank] at hsmooth ⊢
      rw [perform_blank objects hblank]
      exact congrArg (List.cons _) (ih id handled s c hready hsmooth)
    rw [if_neg hblank] at hsmooth ⊢
    have hdirect := ReadOnlyRprMcpServer.direct_snd (J := host.json) (M := host.readModel handled) (call.message id) s
    rcases hanswer : s.answer host.json (host.readModel handled) (call.message id) with ⟨answer, s'⟩
    rw [hanswer] at hsmooth hdirect
    obtain ⟨hcarries, hsmooth⟩ := hsmooth
    dsimp only
    rw [hdirect]
    cases call with
    | request method params =>
      have hmethod : ¬ method.strip.length = 0 := hblank
      obtain ⟨⟨fields, rfl, hfields⟩, hrest⟩ := hsmooth
      obtain ⟨c', hexchange, hready'⟩ := exchange_ready hhost hready harrives hcarries hanswer hfields
      have hchannel : (asChannel py.json host.duplex).exchange
          (PyValue.ofJsonFields ((RpcCall.request method params).message id)) c =
            (.ok (.ofJson (.obj fields)), c') := by
        simp only [asChannel, hexchange]
        rfl
      obtain ⟨hreturned, hsession⟩ := perform_request objects hmethod hchannel
      rw [hreturned, hsession, ReadOnlyRprMcpServer.answer_direct objects (congrArg Prod.fst hanswer)]
      exact congrArg (List.cons _) (ih (id + 1) (handled + 1) s' c' hready' hrest)
    | notify method params =>
      have hmethod : ¬ method.strip.length = 0 := hblank
      obtain ⟨rfl, hrest⟩ := hsmooth
      obtain ⟨c', hsend, hready'⟩ := send_ready hhost hready hcarries hanswer
      have hchannel : (asChannel py.json host.duplex).send
          (PyValue.ofJsonFields ((RpcCall.notify method params).message id)) c = (.ok (), c') := hsend
      obtain ⟨hreturned, hsession⟩ := perform_notify objects hmethod hchannel
      rw [hreturned, hsession]
      exact congrArg (List.cons _) (ih id (handled + 1) s' c' hready' hrest)

/-! ## A small conversation -/

/-- A read model that answers nothing. -/
def blindReadModel : ReadModel where
  status := .ok .null
  listPathways _ := .ok .null
  getPathway _ := .ok .null
  getRouteVisibility _ := .ok .null
  getEvidence _ _ := .ok .null
  listUnresolved _ := .ok .null

/-- A text without its last character, loaded. -/
def loadsLine : PyText → Except PyException Json
  | .utf8 s => loads .sample defaultHooks s.toList.dropLast
  | .lone _ _ => .error (.ofClass "JSONDecodeError" ["ValueError"] "")

/-- A host whose pipes take three bytes, and deliver the first byte of an answer, a byte of `stderr` and the rest. -/
def sampleHost : ServerHost where
  json := {
    loads := loadsLine
    value := fun text => (loadsLine text).toOption
    dumps := fun _ => .ok ""
    loads_ok := fun text j h => by rw [h]; rfl
    loads_decodeError := fun text e h _ => by rw [h]; rfl
    dumps_error := fun j e h => by cases h }
  readModel _ := blindReadModel
  dumps
    | .obj fields => (dumps .sample (PyValue.ofJsonFields fields)).toOption.join
    | _ => none
  accepts data := min data.length 3
  arrives _
    | [] => []
    | [b] => [⟨.stdout, [b], false, by simp⟩]
    | b :: b' :: bytes => [⟨.stdout, [b], false, by simp⟩, ⟨.stderr, [0x21], false, by simp⟩,
        ⟨.stdout, b' :: bytes, false, by simp⟩]

theorem sampleHost_documented : sampleHost.Documented .sample where
  loads text j h := by
    show loads .sample defaultHooks (String.ofList (text ++ ['\n'])).toList.dropLast = .ok j
    rw [String.toList_ofList, List.dropLast_concat, h]
  dumps fields text h := by
    show (dumps .sample (PyValue.ofJsonFields fields)).toOption.join = some text
    rw [h]
    rfl
  accepts data h := by
    have := List.length_pos_iff.mpr h
    simp only [sampleHost]
    omega
  arrives _ bytes := by
    match bytes with
    | [] => exact ⟨rfl, by simp [sampleHost]⟩
    | [b] => exact ⟨rfl, by simp [sampleHost]⟩
    | b :: b' :: bytes => exact ⟨by simp [sampleHost, stdoutBytes], by simp [sampleHost]⟩

/-- The server after the handshake, behind a new channel. -/
def sampleConversation : McpStdioChannel ServerProcess :=
  create (.fresh 128 (by decide)) ⟨64, [], false⟩ 6 { ServerProcess.started with server := ⟨true, true⟩ }

theorem carries_sample {message : JsonObject}
    (hportable : McpStdioLineCodec.Portable .sample (PyValue.ofJsonFields message))
    (h : ((dumps .sample (PyValue.ofJsonFields message)).toOption.join.any
      fun text => decide ((encodeUtf8 text).length ≤ 128)) = true) : Carries .sample 128 message := by
  refine ⟨hportable, ?_⟩
  cases hdumps : dumps .sample (PyValue.ofJsonFields message) with
  | error e => rw [hdumps] at h; cases h
  | ok text =>
    cases text with
    | none => rw [hdumps] at h; cases h
    | some text =>
      rw [hdumps] at h
      exact ⟨text, rfl, of_decide_eq_true h⟩

/-- A ping, a notification of an unknown method and a request of one. -/
def sampleCalls : List RpcCall := [.request "ping" [], .notify "note" [], .request "x" []]

/-- What is sent and received. -/
def sampleMessages : List JsonObject :=
  [(RpcCall.request "ping" []).message 1, (RpcCall.notify "note" []).message 2, (RpcCall.request "x" []).message 2,
    [("jsonrpc", .text "2.0"), ("id", .int 1), ("result", .obj [])],
    [("jsonrpc", .text "2.0"), ("id", .int 2),
      ("error", .obj [("code", .int (-32601)), ("message", .str "method not found: x")])]]

theorem conversation_direct_ping : (records McpStableToolExecutor.sampleObjects
    (asChannel JsonPlatform.sample.json sampleHost.duplex) (sampleCalls.map RpcCall.toCall)
      ⟨1, sampleConversation⟩).map Record.returned =
    [.ok (some []), .ok none, .error (mcpJsonRpcRemoteError (-32601) "method not found: x")] := by
  have hportable : ∀ message ∈ sampleMessages, McpStdioLineCodec.Portable .sample (PyValue.ofJsonFields message) := by
    intro message hmessage
    simp only [sampleMessages, List.mem_cons, List.not_mem_nil, or_false] at hmessage
    rcases hmessage with rfl | rfl | rfl | rfl | rfl <;> refine ⟨?_, ?_, by decide⟩ <;>
      simp [PyValue.Everywhere, PyValue.EverywhereFields, PyValue.TextKeys, PyValue.Proper, PyValue.ofJson,
        PyValue.ofJsonFields, RpcCall.message, Json.text]
  have hfits : ∀ message ∈ sampleMessages, ((dumps .sample (PyValue.ofJsonFields message)).toOption.join.any
      fun text => decide ((encodeUtf8 text).length ≤ 128)) = true := by
    decide +kernel
  have hcarries := fun message hmessage => carries_sample (hportable message hmessage) (hfits message hmessage)
  have hready : Ready 128 6 ⟨true, true⟩ 0 sampleConversation := by
    constructor <;> first | rfl | (intro e he; cases he) | decide
  refine (conversation_direct McpStableToolExecutor.sampleObjects .sample sampleHost sampleHost_documented 128 6 ?_
    sampleCalls 1 0 ⟨true, true⟩ sampleConversation hready ?_).trans rfl
  · intro n bytes _
    rcases bytes with _ | ⟨b, _ | ⟨b', bytes⟩⟩
    · exact (by decide : 2 * 0 ≤ 6)
    · exact (by decide : 2 * 1 ≤ 6)
    · exact (by decide : 2 * 3 ≤ 6)
  · obtain ⟨hping, hrest⟩ := List.forall_mem_cons.mp hcarries
    obtain ⟨hnote, hrest⟩ := List.forall_mem_cons.mp hrest
    obtain ⟨hx, hrest⟩ := List.forall_mem_cons.mp hrest
    obtain ⟨hresult, hrest⟩ := List.forall_mem_cons.mp hrest
    exact ⟨hping, ⟨_, rfl, hresult⟩, hnote, rfl, hx, ⟨_, rfl, hrest _ List.mem_cons_self⟩, trivial⟩

end Calls

end Rpr
