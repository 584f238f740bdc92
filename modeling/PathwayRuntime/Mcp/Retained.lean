import PathwayRuntime.Mcp.Honest
import PathwayRuntime.Model.Retained

/-!
# Admitted calls cannot be retained

The binding of an admitted call and the evidence of a call spell the fields of the server differently.

* `PyDict.hasKeys_get?`: a mapping with exactly these keys has no other one.
* `validatedDispatchParameters_eq_ok`: what the executor accepts.
* **`retained_never`**: no call the executor accepts has retained evidence.
-/

set_option autoImplicit false

namespace Rpr

/-- A mapping whose keys are these has no value under another one. -/
theorem PyDict.hasKeys_get? {fields : PyDict} {keys : List String} (h : fields.hasKeys keys = true)
    {key : String} (hkey : key ∉ keys) : fields.get? key = none := by
  rw [PyDict.hasKeys, Bool.and_eq_true] at h
  rw [PyDict.get?, List.lookup_eq_none_iff]
  rintro f hf
  have hmem := List.all_eq_true.mp h.1 f.1 (List.mem_map_of_mem hf)
  simp only [List.contains_iff_mem, List.mem_map] at hmem
  obtain ⟨k, hk, heq⟩ := hmem
  simp only [← heq, bne_iff_ne, ne_eq, PyKey.str.injEq, PyText.utf8.injEq]
  rintro rfl
  exact hkey hk

/-- A field of a binding that was accepted. -/
theorem bindingText_eq_ok {mcp : PyDict} {field : String} {s : PyText} (h : bindingText mcp field = .ok s) :
    mcp.get? field = some (.str s) ∧ s.isBlank = false ∧ s.strip = s := by
  rw [bindingText] at h
  split at h
  · rename_i s' hget
    split_ifs at h with hinvalid
    obtain rfl := Except.ok.inj h
    rw [Bool.not_eq_true, Bool.or_eq_false_iff] at hinvalid
    exact ⟨hget, hinvalid.1, (by simpa using hinvalid.2 : s' = s'.strip).symm⟩
  · cases h

/-- A binding that was accepted. -/
theorem validatedBinding_eq_ok {mcp : PyDict} {toolName : PyText} (h : validatedBinding mcp = .ok toolName) :
    mcp.hasKeys mcpBindingFields = true ∧
      bindingText mcp "protocol_version" = .ok (PyText.utf8 stableProtocolVersion) ∧
      bindingText mcp "tool_name" = .ok toolName := by
  rw [validatedBinding] at h
  split_ifs at h with hkeys
  obtain ⟨version, hversion, h⟩ := except_bind_eq_ok.mp h
  obtain ⟨-, -, h⟩ := except_bind_eq_ok.mp h
  obtain ⟨name, hname, h⟩ := except_bind_eq_ok.mp h
  split_ifs at h with hstable
  obtain ⟨-, -, h⟩ := except_bind_eq_ok.mp h
  obtain ⟨-, -, h⟩ := except_bind_eq_ok.mp h
  obtain rfl := Except.ok.inj h
  exact ⟨by simpa using hkeys, not_not.mp hstable ▸ hversion, hname⟩

/-- **What the executor accepts**: a binding, and arguments within the limits of admission. -/
theorem validatedDispatchParameters_eq_ok {request : ExecutionRequest} {toolName : PyText}
    {arguments : List (PyText × Json)}
    (h : validatedDispatchParameters request = .ok (toolName, arguments)) : ∃ mcp given,
      request.parameters.hasKeys ["mcp", "arguments"] = true ∧
      request.parameters.get? "mcp" = some (.dict mcp) ∧
      request.parameters.get? "arguments" = some (.dict given) ∧ validatedBinding mcp = .ok toolName ∧
      ∃ text, strictJsonDocument (.dict given) "arguments" = .ok (.obj arguments, text) := by
  rw [validatedDispatchParameters] at h
  split_ifs at h with hkeys
  split at h
  · rename_i mcp given hmcp hgiven
    obtain ⟨name, hname, h⟩ := except_bind_eq_ok.mp h
    obtain ⟨⟨detached, text⟩, hdocument, h⟩ := except_bind_eq_ok.mp h
    dsimp only at h
    split at h
    · obtain ⟨rfl, rfl⟩ := Prod.mk.inj (Except.ok.inj h)
      exact ⟨mcp, given, by simpa using hkeys, hmcp, hgiven, hname, text, hdocument⟩
    · cases h
  · cases h

/-- The binding of an accepted call has no server name. -/
theorem retainedAdmission_error {mcp : PyDict} {toolName : PyText} (h : validatedBinding mcp = .ok toolName) :
    retainedAdmission mcp admissionKeys =
      .error (mcpRetainedEvidenceError "mcp.server_name must be a non-empty string") := by
  obtain ⟨hkeys, hversion, -⟩ := validatedBinding_eq_ok h
  obtain ⟨hget, hblank, -⟩ := bindingText_eq_ok hversion
  have hserver : mcp.get? "server_name" = none := PyDict.hasKeys_get? hkeys (by decide)
  rw [admissionKeys, retainedAdmission, hget, retainedText, hblank, if_neg Bool.false_ne_true]
  rw [retainedAdmission, hserver]
  rfl

/-- **No admitted call can be retained.** Whatever its result, process exit, diagnostics and residual
boundary are, building the evidence of a call the executor accepts raises. -/
theorem retained_never (py : Platform) (js : JsonPlatform) (frames : ℕ) (request : ExecutionRequest) (toolName : PyText)
    (arguments : List (PyText × Json))
    (hvalid : validatedDispatchParameters request = .ok (toolName, arguments)) (result : ExecutionResult)
    (processExit : Option McpProcessExit) (diagnostics : Option McpDiagnosticsEvidence)
    (residualBoundary : PyValue) :
    buildMcpRetainedEvidence py js frames request result processExit diagnostics residualBoundary =
      .error (mcpRetainedEvidenceError
        (if request.action = "mcp_tool_call" then "mcp.server_name must be a non-empty string"
          else "request is not an MCP tool call")) := by
  obtain ⟨mcp, given, -, hmcp, -, hbinding, -⟩ := validatedDispatchParameters_eq_ok hvalid
  rw [buildMcpRetainedEvidence]
  by_cases haction : request.action = "mcp_tool_call"
  · rw [if_neg (not_not.mpr haction), if_pos haction, hmcp]
    simp only [retainedAdmission_error hbinding]
    rfl
  · rw [if_pos haction, if_neg haction]

open McpStableToolExecutor

/-- An executor whose transport times out. -/
def timedOut : McpStableToolExecutor Unit :=
  ⟨⟨fun _ _ s => (.error (.ofClass "TimeoutError" ["OSError"] "timed out"), s)⟩, none, true⟩

/-- What it returns. -/
def timedOutResult : ExecutionResult :=
  result .writeStatusUnknown (McpStableToolExecutor.dispatched "possibly_sent" []) "TimeoutError: timed out"

theorem sampleRequest_valid : validatedDispatchParameters sampleRequest = .ok ("replace_record", []) :=
  eq_ok_of_callsWithout (by decide +kernel)

theorem retained_never_sample :
    buildMcpRetainedEvidence .sample .sample 900 sampleRequest timedOutResult none none (.text "single node") =
      .error (mcpRetainedEvidenceError "mcp.server_name must be a non-empty string") :=
  retained_never .sample .sample 900 sampleRequest "replace_record" [] sampleRequest_valid timedOutResult none none _

/-- **A timed out call cannot be retained**, though its evidence is strict JSON. -/
theorem retained_timedOut :
    validatedDispatchParameters sampleRequest = .ok ("replace_record", []) ∧
      (timedOut.execute sampleRequest ()).1 = .ok timedOutResult ∧
      (retainedJson .sample 900 "$" (.dict timedOutResult.evidence)).toOption.isSome = true ∧
      timedOutResult.evidence.get? "dispatch_state" = some (.text "possibly_sent") ∧
      ¬ ∃ evidence, buildMcpRetainedEvidence .sample .sample 900 sampleRequest timedOutResult none none
        (.text "single node") = .ok evidence := by
  refine ⟨sampleRequest_valid, ?_, by decide +kernel, rfl, ?_⟩
  · have haction : ¬ sampleRequest.action ≠ "mcp_tool_call" := not_not.mpr rfl
    rw [McpStableToolExecutor.execute, if_neg haction, sampleRequest_valid]
    rfl
  · rintro ⟨evidence, h⟩
    have hraises : (buildMcpRetainedEvidence .sample .sample 900 sampleRequest timedOutResult none none
        (.text "single node")).toOption.isSome = false := by decide +kernel
    rw [h] at hraises
    cases hraises

end Rpr
