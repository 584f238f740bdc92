import PathwayRuntime.Stdio.Channel

/-!
# What the codec and the channel raise

* `McpStdioLineCodec.Raises`, `McpStdioChannel.Raises`: the exceptions, by where they come from.
* One lemma an operation; **`exchange_error`**: what an exchange raises.
-/

set_option autoImplicit false

namespace Rpr

namespace McpStdioLineCodec

/-- What the codec raises: a framing failure, or what `json` and `.encode` raise past it. -/
inductive Raises (J : JsonModule) : PyException → Prop
  | framing (reason : PyText) : Raises J (mcpStdioFramingError reason)
  | encoding : Raises J unicodeEncodeError
  | dumps {fields : PyDict} {e : PyException} (h : J.dumps fields = .error e)
      (hpassed : ¬ e.isAny ["TypeError", "ValueError"] = true) : Raises J e
  | loads {text : List Char} {e : PyException} (h : J.loads text = .error e)
      (hpassed : ¬ e.isAny ["JSONDecodeError", "ValueError"] = true) : Raises J e

variable {J : JsonModule} {codec codec' : McpStdioLineCodec} {e : PyException}

theorem fail_error {α : Type} {reason : PyText} (h : codec.fail (α := α) reason = (.error e, codec')) :
    Raises J e := Except.error.inj (congrArg Prod.fst h) ▸ .framing reason

theorem unhealthy_error {α : Type} (h : ((.error unhealthy : Except PyException α), codec) = (.error e, codec')) :
    Raises J e := Except.error.inj (congrArg Prod.fst h) ▸ .framing _

theorem encode_error {message : PyValue} (h : codec.encode J message = (.error e, codec')) : Raises J e := by
  rw [encode.eq_def] at h
  split at h
  · exact unhealthy_error h
  split at h
  · rename_i fields
    split at h
    · rename_i e' hdumps
      split at h
      · exact fail_error h
      · rename_i hpassed
        obtain rfl := Except.error.inj (congrArg Prod.fst h)
        exact .dumps hdumps hpassed
    · exact Except.error.inj (congrArg Prod.fst h) ▸ .encoding
    · split at h
      · exact fail_error h
      split at h
      · exact fail_error h
      · cases congrArg Prod.fst h
  · exact fail_error h

theorem decodeLine_raised {maxMessageBytes : ℕ} {line : Bytes}
    (h : decodeLine J maxMessageBytes line = .error (.raised e)) : Raises J e := by
  rw [decodeLine.eq_def] at h
  split at h
  · cases h
  split at h
  · cases h
  split at h
  · cases h
  split at h
  · cases h
  split at h
  · rename_i e' hloads
    split at h
    · cases h
    · rename_i hpassed
      obtain rfl : e' = e := by simpa using h
      exact .loads hloads hpassed
  · cases h
  · cases h

theorem drain_raised {maxMessageBytes : ℕ} {lines : List Bytes} {tail rest : Bytes}
    (h : drain J maxMessageBytes lines tail = .error (.raised e, rest)) : Raises J e := by
  induction lines with
  | nil => cases h
  | cons line lines ih =>
    rw [drain] at h
    cases hd : decodeLine J maxMessageBytes line with
    | error x =>
      rw [hd] at h
      obtain ⟨rfl, -⟩ := Prod.mk.inj (Except.error.inj h)
      exact decodeLine_raised hd
    | ok m =>
      rw [hd] at h
      cases hr : drain J maxMessageBytes lines tail with
      | error x =>
        rw [hr] at h
        exact ih (hr.trans (congrArg _ (Except.error.inj h)))
      | ok ms =>
        rw [hr] at h
        cases h

theorem feed_error {chunk : Bytes} (h : codec.feed J chunk = (.error e, codec')) : Raises J e := by
  rw [feed.eq_def] at h
  split at h
  · exact unhealthy_error h
  split at h
  · cases congrArg Prod.fst h
  dsimp only at h
  split at h
  · exact fail_error h
  split at h
  · exact fail_error h
  · rename_i e' rest hdrain
    obtain rfl := Except.error.inj (congrArg Prod.fst h)
    exact drain_raised hdrain
  · split at h
    · exact fail_error h
    · cases congrArg Prod.fst h

theorem finish_error (h : codec.finish = (.error e, codec')) : Raises J e := by
  rw [finish.eq_def] at h
  split at h
  · exact unhealthy_error h
  split at h
  · exact fail_error h
  · cases congrArg Prod.fst h

end McpStdioLineCodec

namespace McpStdioChannel

variable {σ : Type}

/-- What the channel raises: what the codec raises, a transport failure of its own, or what becomes of an
exception of the duplex. -/
inductive Raises (J : JsonModule) (duplex : McpStdioDuplex σ) : PyException → Prop
  | codec {e : PyException} (h : McpStdioLineCodec.Raises J e) : Raises J duplex e
  | transport (reason : PyText) : Raises J duplex (mcpTransportError reason)
  | write {data : Bytes} {s s' : σ} {e : PyException} (h : duplex.writeStdin data s = (.raised e, s')) :
      Raises J duplex (e.escalate writePassed fun e =>
        mcpTransportError (PyText.utf8 "MCP stdio write failed: " ++ e.describe))
  | read {s s' : σ} {e : PyException} (h : duplex.readEvent s = (.raised e, s')) :
      Raises J duplex (e.escalate readPassed fun e =>
        mcpTransportError (PyText.utf8 "MCP stdio read failed: " ++ e.describe))

variable {J : JsonModule} {duplex : McpStdioDuplex σ} {e : PyException} {c c' : McpStdioChannel σ}

theorem writeAll_error {fuel : ℕ} {payload : Bytes} (h : writeAll duplex fuel payload c = (.error e, c')) :
    Raises J duplex e := by
  induction fuel generalizing payload c with
  | zero => cases congrArg Prod.fst h
  | succ fuel ih =>
    rw [writeAll] at h
    split at h
    · cases congrArg Prod.fst h
    split at h
    · rename_i e' peer hwrite
      exact Except.error.inj (congrArg Prod.fst h) ▸ .write hwrite
    · exact Except.error.inj (congrArg Prod.fst h) ▸ .transport _
    · split at h
      · exact Except.error.inj (congrArg Prod.fst h) ▸ .transport _
      · exact ih h

theorem send_error {message : PyValue} (h : send J duplex message c = (.error e, c')) : Raises J duplex e := by
  rw [send] at h
  split at h
  · exact Except.error.inj (congrArg Prod.fst h) ▸ .transport _
  rw [writeMessage] at h
  split at h
  · rename_i e' codec hencode
    obtain rfl := Except.error.inj (congrArg Prod.fst h)
    exact .codec (McpStdioLineCodec.encode_error hencode)
  · exact writeAll_error h

theorem readEvent_error (h : readEvent duplex c = (.error e, c')) : Raises J duplex e := by
  rw [readEvent] at h
  split at h
  · rename_i e' peer hread
    exact Except.error.inj (congrArg Prod.fst h) ▸ .read hread
  · exact Except.error.inj (congrArg Prod.fst h) ▸ .transport _
  · cases congrArg Prod.fst h

theorem handleStderr_error {event : McpStdioEvent} (h : handleStderr event c = (.error e, c')) :
    Raises J duplex e := by
  rw [handleStderr] at h
  split at h
  · cases congrArg Prod.fst h
  split at h
  · exact Except.error.inj (congrArg Prod.fst h) ▸ .transport _
  · cases congrArg Prod.fst h

theorem handleEvent_error {event : McpStdioEvent} (h : handleEvent J event c = (.error e, c')) :
    Raises J duplex e := by
  rw [handleEvent] at h
  split at h
  · split at h
    · rename_i e' c₁ hstderr
      obtain rfl := Except.error.inj (congrArg Prod.fst h)
      exact handleStderr_error hstderr
    · cases congrArg Prod.fst h
  split at h
  · split at h
    · rename_i e' codec hfinish
      obtain rfl := Except.error.inj (congrArg Prod.fst h)
      exact .codec (McpStdioLineCodec.finish_error hfinish)
    · exact Except.error.inj (congrArg Prod.fst h) ▸ .transport _
  · split at h
    · rename_i e' codec hfeed
      obtain rfl := Except.error.inj (congrArg Prod.fst h)
      exact .codec (McpStdioLineCodec.feed_error hfeed)
    · cases congrArg Prod.fst h
    · cases congrArg Prod.fst h
    · exact Except.error.inj (congrArg Prod.fst h) ▸ .transport _

theorem awaitMessage_error {events : ℕ} (h : awaitMessage J duplex events c = (.error e, c')) :
    Raises J duplex e := by
  induction events generalizing c with
  | zero => exact Except.error.inj (congrArg Prod.fst h) ▸ .transport _
  | succ events ih =>
    rw [awaitMessage] at h
    split at h
    · rename_i e' c₁ hread
      obtain rfl := Except.error.inj (congrArg Prod.fst h)
      exact readEvent_error hread
    split at h
    · rename_i e' c₁ hhandle
      obtain rfl := Except.error.inj (congrArg Prod.fst h)
      exact handleEvent_error hhandle
    · cases congrArg Prod.fst h
    · exact ih h

/-- **What an exchange raises.** -/
theorem exchange_error {message : PyValue} (h : exchange J duplex message c = (.error e, c')) :
    Raises J duplex e := by
  rw [exchange] at h
  split at h
  · rename_i e' c₁ hsend
    obtain rfl := Except.error.inj (congrArg Prod.fst h)
    exact send_error hsend
  · exact awaitMessage_error h

end McpStdioChannel

end Rpr
