import PathwayRuntime.Mcp.Correlated
import PathwayRuntime.Model.ToolExecutor
import PathwayRuntime.Stdio.Json
import PathwayRuntime.Stdio.Raised

/-!
# MCP classification is honest

* `PyException.Uncertain`: an exception that does not say that nothing was sent; `request_uncertain`: a
  session over a stdio channel raises no other.
* `Answered`: a response envelope with the id of the call was decoded; `request_answered`.
* **`execute_honest`**: the status a tool call returns says no more than what was decoded and observed.
-/

set_option autoImplicit false

namespace Rpr

/-- The exception does not say that the tool call was not sent. -/
def PyException.Uncertain (e : PyException) : Prop := e.isA "McpToolCallNotSentError" = false

/-- The duplex never says that the tool call was not sent. -/
structure McpStdioDuplex.Uncertain {σ : Type} (duplex : McpStdioDuplex σ) : Prop where
  write : ∀ data s e s', duplex.writeStdin data s = (.raised e, s') → e.Uncertain
  read : ∀ s e s', duplex.readEvent s = (.raised e, s') → e.Uncertain

theorem uncertain_transport (reason : PyText) : (mcpTransportError reason).Uncertain := rfl

theorem uncertain_builtin {e : PyException} (h : e.Builtin) : e.Uncertain := by
  obtain ⟨hname, hbases⟩ := h
  have hne : e.name ≠ "McpToolCallNotSentError" := by
    intro heq
    rw [heq] at hname
    exact absurd hname (by decide)
  have hnot : "McpToolCallNotSentError" ∉ e.bases := fun hmem => absurd (hbases _ hmem) (by decide)
  simp [PyException.Uncertain, PyException.isA, hne, hnot]

theorem uncertain_escalate {passed : List String} {other : PyException → PyException} {e : PyException}
    (h : e.Uncertain) (hother : (other e).Uncertain) : (e.escalate passed other).Uncertain := by
  rw [PyException.escalate]
  split_ifs
  · exact h
  · exact hother
  · exact h

variable {py : JsonPlatform} {objects : PyObjects} {σ : Type} {duplex : McpStdioDuplex σ}

/-- What `json` raises past the codec is a `RecursionError`. -/
theorem codec_uncertain {e : PyException} (h : McpStdioLineCodec.Raises py.json e) : e.Uncertain := by
  cases h with
  | framing reason => rfl
  | encoding => rfl
  | dumps hdumps hpassed => exact (json_dumps_error hdumps).resolve_left hpassed ▸ rfl
  | loads hloads hpassed =>
    refine (json_loads_error hloads).elim (fun hvalue => absurd ?_ hpassed) fun hrec => hrec ▸ rfl
    simp [PyException.isAny, hvalue]

variable (py) in
theorem channel_uncertain (hduplex : duplex.Uncertain) {e : PyException}
    (h : McpStdioChannel.Raises py.json duplex e) : e.Uncertain := by
  cases h with
  | codec hcodec => exact codec_uncertain hcodec
  | transport reason => rfl
  | write hwrite => exact uncertain_escalate (hduplex.write _ _ _ _ hwrite) (uncertain_transport _)
  | read hread => exact uncertain_escalate (hduplex.read _ _ _ hread) (uncertain_transport _)

namespace McpJsonRpcSession

/-! ## What a request raises -/

/-- The members of a decoded object are decoded values. -/
theorem get?_decoded {fields : List (PyText × Json)} {key : String} {v : PyValue}
    (h : PyDict.get? (PyValue.ofJsonFields fields) key = some v) : ∃ j, v = PyValue.ofJson j := by
  rw [PyDict.get?] at h
  induction fields with
  | nil => cases h
  | cons f fields ih =>
    rw [PyValue.ofJsonFields, List.lookup_cons] at h
    split at h
    · exact ⟨f.2, (Option.some.inj h).symm⟩
    · exact ih h

/-- The keys of a decoded object are texts. -/
theorem extras_texts {known : List String} {fields : List (PyText × Json)} :
    ∀ key ∈ extras known (PyValue.ofJsonFields fields), ∃ s, key = .str s := by
  intro key hkey
  have hmem := List.mem_of_mem_filter hkey
  rw [keys_ofJsonFields] at hmem
  obtain ⟨s, -, rfl⟩ := List.mem_map.mp hmem
  exact ⟨s, rfl⟩

theorem mismatch_uncertain (expectedId : ℕ) (id : Json) :
    (mismatch objects expectedId (PyValue.ofJson id)).Uncertain := by
  rw [mismatch]
  split
  · rfl
  · rename_i e h
    exact uncertain_builtin (objects.repr_error (.int expectedId) _ h)
  · rename_i e h _
    exact uncertain_builtin (objects.repr_error id _ h)

/-- No foreign object is asked whether it is the version. -/
theorem versionMatches_decoded {fields : List (PyText × Json)} {e : PyException} :
    versionMatches objects (PyValue.ofJsonFields fields) ≠ .error e := by
  rw [versionMatches]
  split
  · rename_i version hversion
    obtain ⟨j, rfl⟩ := get?_decoded hversion
    cases j <;> exact fun h => by cases h
  · exact fun h => by cases h

theorem idMatches_decoded {id : Json} {n : ℕ} {e : PyException} :
    idMatches objects (PyValue.ofJson id) n ≠ .error e := by
  cases id <;> exact fun h => by cases h

/-- Members that are not supported are reported, unless their names cannot be. -/
theorem extras_uncertain {keys : List PyKey} {reason : PyText} {e : PyException}
    (hkeys : ∀ key ∈ keys, ∃ s, key = .str s)
    (h : (match objects.reprSorted keys with
      | .ok text => mcpTransportError (reason ++ text)
      | .error e => e) = e) : e.Uncertain := by
  subst h
  split
  · rfl
  · rename_i e h
    exact uncertain_builtin (objects.reprSorted_error _ _ hkeys h)

theorem remoteError_uncertain (error : Json) : (remoteError objects (PyValue.ofJson error)).Uncertain := by
  cases error with
  | obj fields =>
    rw [PyValue.ofJson, remoteError.eq_def]
    dsimp only
    split
    · split
      · split
        · rfl
        split
        · rfl
        · exact extras_uncertain extras_texts rfl
      · rfl
    · rfl
  | _ => rfl

theorem validateResponse_uncertain {message : JsonObject} {n : ℕ} {e : PyException}
    (h : validateResponse objects (.dict (PyValue.ofJsonFields message)) n = .error e) : e.Uncertain := by
  rw [validateResponse, validateFields] at h
  split at h
  · rename_i e' hversion
    exact absurd hversion versionMatches_decoded
  · exact Except.error.inj h ▸ rfl
  split at h
  · exact Except.error.inj h ▸ rfl
  rename_i id hid
  obtain ⟨id, rfl⟩ := get?_decoded hid
  split at h
  · rename_i e' hmatch
    exact absurd hmatch idMatches_decoded
  · exact Except.error.inj h ▸ mismatch_uncertain _ _
  split at h
  · exact Except.error.inj h ▸ rfl
  split at h
  · split at h
    · rename_i error herror
      obtain ⟨error, rfl⟩ := get?_decoded herror
      exact Except.error.inj h ▸ remoteError_uncertain _
    split at h
    · cases h
    · exact Except.error.inj h ▸ rfl
  · split at h
    · exact Except.error.inj h ▸ rfl
    · rename_i e' hkeys
      exact Except.error.inj h ▸ uncertain_builtin (objects.reprSorted_error _ _ extras_texts hkeys)

/-- **A request over a stdio channel** raises nothing that says that nothing was sent. -/
theorem request_uncertain (hduplex : duplex.Uncertain) {method : PyText} {params : PyValue}
    {s : McpJsonRpcSession (McpStdioChannel σ)} {e : PyException}
    (h : (request objects (McpStdioChannel.asChannel py.json duplex) method params s).returned = .error e) :
    e.Uncertain := by
  rw [request] at h
  split at h
  · rename_i e' hmethod
    rw [methodValue] at hmethod
    split_ifs at hmethod
    obtain rfl := Except.error.inj h
    exact Except.error.inj hmethod ▸ rfl
  · rename_i e' hparams
    obtain rfl := Except.error.inj h
    cases params <;> first | (cases hparams; rfl) | cases hparams
  · rw [exchange] at h
    split at h
    · rename_i e' ch hexchange
      rw [wrapped] at h
      refine Except.error.inj h ▸ uncertain_escalate (channel_uncertain py hduplex ?_) (uncertain_transport _)
      simp only [McpStdioChannel.asChannel] at hexchange
      split at hexchange
      · cases congrArg Prod.fst hexchange
      · rename_i e'' ch' hchannel
        obtain rfl := Except.error.inj (congrArg Prod.fst hexchange)
        exact McpStdioChannel.exchange_error hchannel
    · rename_i response ch hexchange
      simp only [McpStdioChannel.asChannel] at hexchange
      split at hexchange
      · rename_i message ch' hmessage
        obtain rfl := Except.ok.inj (congrArg Prod.fst hexchange)
        exact validateResponse_uncertain h
      · cases congrArg Prod.fst hexchange

/-! ## What a request returns -/

/-- A response envelope with the id of this call and the result `v` was decoded from the one line of
`stdout` that its exchange completed. -/
def Answered (py : JsonPlatform) (objects : PyObjects) (duplex : McpStdioDuplex σ) (params : PyDict)
    (s s' : McpJsonRpcSession (McpStdioChannel σ)) (v : PyDict) : Prop :=
  ∃ (m : JsonObject) (new line tail : Bytes),
    McpStdioChannel.exchange py.json duplex (.dict (requestEnvelope s.nextRequestId "tools/call" params))
      s.channel = (.ok m, s'.channel) ∧
    s'.channel.stdout = s.channel.stdout ++ new ∧
    Framing.cut lf (s.channel.codec.buffer ++ new) = ([line], tail) ∧
    McpStdioLineCodec.decodeLine py.json s.channel.codec.maxMessageBytes line = .ok m ∧
    Envelope objects (PyValue.ofJsonFields m) s.nextRequestId v

/-- **A request that returns was answered.** -/
theorem request_answered {params : PyDict} {s : McpJsonRpcSession (McpStdioChannel σ)} {v : PyDict}
    (h : (request objects (McpStdioChannel.asChannel py.json duplex) "tools/call" (.dict params) s).returned =
      .ok v) :
    Answered py objects duplex params s
      (request objects (McpStdioChannel.asChannel py.json duplex) "tools/call" (.dict params) s).session v := by
  have hmethod : methodValue "tools/call" = .ok "tools/call" := by decide +kernel
  have hrequest : request objects (McpStdioChannel.asChannel py.json duplex) "tools/call" (.dict params) s =
      exchange objects (McpStdioChannel.asChannel py.json duplex) "tools/call" params s := by
    rw [request, hmethod]
    rfl
  rw [hrequest] at h ⊢
  rw [exchange] at h ⊢
  cases hexchange : McpStdioChannel.exchange py.json duplex
      (.dict (requestEnvelope s.nextRequestId "tools/call" params)) s.channel with
  | mk outcome ch =>
    simp only [McpStdioChannel.asChannel, hexchange] at h ⊢
    cases outcome with
    | error e => cases h
    | ok m =>
      have hvalid : validateResponse objects (.dict (PyValue.ofJsonFields m)) s.nextRequestId = .ok v := h
      obtain ⟨fields, hfields, henvelope⟩ := validateResponse_eq_ok hvalid
      obtain rfl := PyValue.dict.inj hfields
      rw [McpStdioChannel.exchange] at hexchange
      split at hexchange
      · cases congrArg Prod.fst hexchange
      · rename_i c₁ hsend
        -- Sending leaves the codec and what was read alone.
        obtain ⟨-, payload, peer, -, rfl⟩ := McpStdioChannel.send_eq_ok hsend
        obtain ⟨-, new, line, tail, hstdout, hcut, hdecode⟩ := McpStdioChannel.awaitMessage_eq_ok hexchange
        refine ⟨m, new, line, tail, ?_, hstdout, hcut, hdecode, henvelope⟩
        rw [McpStdioChannel.exchange, hsend]
        exact hexchange

end McpJsonRpcSession

namespace McpStableToolExecutor

open McpJsonRpcSession

/-- An exception of the transport that does not say that nothing was sent leaves the outcome unknown. -/
theorem unanswered_unknown {e : PyException} (he : e.Uncertain) {r : ExecutionResult}
    (h : unanswered e = .ok r) : r.status = .writeStatusUnknown := by
  rw [unanswered, if_neg (by rw [he]; exact Bool.false_ne_true)] at h
  split_ifs at h
  · exact Except.ok.inj h ▸ rfl
  · exact Except.ok.inj h ▸ rfl

/-- What an observation is classified as. -/
theorem observed_spec {toolResult : PyDict} {observation : Observation} {r : ExecutionResult}
    (h : observed toolResult observation = .ok r) : r.status = .writeStatusUnknown ∨
      r.status = .succeeded ∧ ∃ readback, observation = .evidence readback ∧ readback.verified = true ∧
        r.readback = some readback := by
  cases observation with
  | raised e =>
    rw [observed] at h
    split_ifs at h
    exact .inl (Except.ok.inj h ▸ rfl)
  | invalid => exact .inl (Except.ok.inj h ▸ rfl)
  | evidence readback =>
    obtain rfl := Except.ok.inj h
    by_cases hverified : readback.verified = true
    · exact .inr ⟨if_pos hverified, readback, rfl, hverified, rfl⟩
    · exact .inl (if_neg hverified)

/-- What a tool result is classified as, when a readback is required. -/
theorem classifyResult_spec {τ : Type} {x : McpStableToolExecutor τ} (hreadback : x.requireReadback = true)
    {request : ExecutionRequest} {toolResult : PyDict} {r : ExecutionResult}
    (h : x.classifyResult request toolResult = .ok r) : r.status = .writeStatusUnknown ∨
      r.status = .failed ∧ toolResult.get? "isError" = some (.bool true) ∨
      r.status = .succeeded ∧ ∃ observe readback, x.readbackObserver = some observe ∧
        observe request toolResult = .evidence readback ∧ readback.verified = true ∧
        r.readback = some readback := by
  rw [classifyResult.eq_def] at h
  split at h
  · rename_i hisError
    exact .inr (.inl ⟨Except.ok.inj h ▸ rfl, hisError⟩)
  · rw [if_neg (by simp [hreadback])] at h
    split at h
    · exact .inl (Except.ok.inj h ▸ rfl)
    · rename_i observe hobserver
      refine (observed_spec h).imp_right fun ⟨hstatus, readback, hevidence, hverified, hr⟩ => .inr ?_
      exact ⟨hstatus, observe, readback, hobserver, hevidence, hverified, hr⟩

/-- **MCP classification is honest.** A tool call over a session over a stdio channel whose duplex never says
that nothing was sent: if it returns `FAILED`, an envelope with its id reported an error; if it returns
`SUCCEEDED`, an envelope with its id carried the result and the observer returned a verified readback;
otherwise it returns `WRITE_STATUS_UNKNOWN`. -/
theorem execute_honest (py : JsonPlatform) (objects : PyObjects) (duplex : McpStdioDuplex σ)
    (hduplex : duplex.Uncertain) (observer : Option (ExecutionRequest → PyDict → Observation))
    (request : ExecutionRequest) (haction : request.action = "mcp_tool_call") (toolName : PyText)
    (arguments : List (PyText × Json))
    (hvalid : validatedDispatchParameters request = .ok (toolName, arguments))
    (s s' : McpJsonRpcSession (McpStdioChannel σ)) (r : ExecutionResult)
    (h : execute ⟨asTransport objects (McpStdioChannel.asChannel py.json duplex), observer, true⟩ request s =
      (.ok r, s')) :
    (r.status = .failed ∧ ∃ v, Answered py objects duplex (callParams toolName arguments) s s' v ∧
      v.get? "isError" = some (.bool true)) ∨
    (r.status = .succeeded ∧ ∃ v observe readback,
      Answered py objects duplex (callParams toolName arguments) s s' v ∧ observer = some observe ∧
      observe request v = .evidence readback ∧ readback.verified = true ∧ r.readback = some readback) ∨
    r.status = .writeStatusUnknown := by
  rw [execute, if_neg (not_not.mpr haction), hvalid] at h
  simp only [dispatch, asTransport] at h
  cases hreturned : (McpJsonRpcSession.request objects (McpStdioChannel.asChannel py.json duplex) "tools/call"
      (.dict (callParams toolName arguments)) s).returned with
  | error e =>
    rw [hreturned] at h
    obtain ⟨hr, -⟩ := Prod.mk.inj h
    exact .inr (.inr (unanswered_unknown (request_uncertain hduplex hreturned) hr))
  | ok v =>
    rw [hreturned] at h
    obtain ⟨hr, rfl⟩ := Prod.mk.inj h
    have hanswered := request_answered hreturned
    rcases classifyResult_spec rfl hr with hstatus | ⟨hstatus, hisError⟩ |
      ⟨hstatus, observe, readback, hobserver, hevidence, hverified, hreadback⟩
    · exact .inr (.inr hstatus)
    · exact .inl ⟨hstatus, v, hanswered, hisError⟩
    · exact .inr (.inl ⟨hstatus, v, observe, readback, hanswered, hobserver, hevidence, hverified, hreadback⟩)

/-! ## A run -/

/-- Foreign objects that are equal to nothing. -/
def sampleObjects : PyObjects := alikeObjects false

/-- An admitted request without arguments. -/
def sampleRequest : ExecutionRequest where
  operationId := "op-1"
  attemptId := "attempt-1"
  idempotencyKey := "idem-1"
  action := "mcp_tool_call"
  parameters := [(.str "mcp", .dict [(.str "protocol_version", .text stableProtocolVersion),
    (.str "server_identity", .text "example@1.0"),
    (.str "server_capabilities_hash", .text (String.ofList (List.replicate 64 'a'))),
    (.str "tool_name", .text "replace_record"),
    (.str "tool_schema_hash", .text (String.ofList (List.replicate 64 'b')))]), (.str "arguments", .dict [])]
  operationId_required := by decide +kernel
  attemptId_required := by decide +kernel
  idempotencyKey_required := by decide +kernel
  action_required := by decide +kernel

/-- A peer that accepts every write and sends these events. -/
def reciting : McpStdioDuplex (List McpStdioEvent) where
  writeStdin data events := (.wrote data.length, events)
  readEvent
    | [] => (.invalid, [])
    | event :: events => (.event event, events)

theorem reciting_uncertain : reciting.Uncertain where
  write data s e s' h := by cases congrArg Prod.fst h
  read s e s' h := by cases s <;> cases congrArg Prod.fst h

/-- A session whose server answers its first request. -/
def answering : McpJsonRpcSession (McpStdioChannel (List McpStdioEvent)) :=
  ⟨1, McpStdioChannel.create (.fresh 4096 (by decide)) ⟨64, [], false⟩ 4
    [⟨.stdout, "\x7b\"jsonrpc\":\"2.0\",\"id\":1,\"result\":\x7b\x7d\x7d\n".toUTF8.toList, false, by decide +kernel⟩]⟩

/-- An observer that verifies everything. -/
def verifyAll : ExecutionRequest → PyDict → Observation := fun _ _ => .evidence ⟨true, [], none⟩

/-- The request calls this tool without arguments. -/
def callsWithout (toolName : String) : Except PyException (PyText × List (PyText × Json)) → Bool
  | .ok (.utf8 name, []) => name == toolName
  | _ => false

theorem eq_ok_of_callsWithout {toolName : String} {r : Except PyException (PyText × List (PyText × Json))}
    (h : callsWithout toolName r = true) : r = .ok (.utf8 toolName, []) := by
  match r with
  | .ok (.utf8 name, []) => rw [beq_iff_eq.mp h]
  | .ok (.utf8 name, _ :: _) => cases h
  | .ok (.lone _ _, _) => cases h
  | .error _ => cases h

theorem execute_honest_verified : ∃ (r : ExecutionResult)
    (s' : McpJsonRpcSession (McpStdioChannel (List McpStdioEvent))),
    r.status = .succeeded ∧ ∃ v observe readback, Answered JsonPlatform.sample sampleObjects reciting
      (callParams "replace_record" []) answering s' v ∧ some verifyAll = some observe ∧
      observe sampleRequest v = .evidence readback ∧ readback.verified = true ∧ r.readback = some readback := by
  have hvalid : validatedDispatchParameters sampleRequest = .ok ("replace_record", []) :=
    eq_ok_of_callsWithout (by decide +kernel)
  have hstatus : (execute ⟨asTransport sampleObjects (McpStdioChannel.asChannel JsonPlatform.sample.json reciting),
      some verifyAll, true⟩ sampleRequest answering).1.map ExecutionResult.status = .ok .succeeded := by
    decide +kernel
  cases hexecute : execute ⟨asTransport sampleObjects (McpStdioChannel.asChannel JsonPlatform.sample.json reciting),
      some verifyAll, true⟩ sampleRequest answering with
  | mk returned s' =>
    rw [hexecute] at hstatus
    cases returned with
    | error e => cases hstatus
    | ok r =>
      have hr : r.status = .succeeded := Except.ok.inj hstatus
      rcases execute_honest .sample sampleObjects reciting reciting_uncertain (some verifyAll) sampleRequest rfl
        "replace_record" [] hvalid answering s' r hexecute with ⟨hfailed, -⟩ | hsucceeded | hunknown
      · exact absurd (hr.symm.trans hfailed) (by decide)
      · exact ⟨r, s', hsucceeded⟩
      · exact absurd (hr.symm.trans hunknown) (by decide)

end McpStableToolExecutor

end Rpr
