import Mathlib.Data.List.TakeWhile
import PathwayRuntime.Mcp.Replies
import PathwayRuntime.Model.Process

/-!
# The answers of the server, and what a session makes of them

* `Worded`: what is returned has a property, and every error has a message.
* `handle_worded`: the server answers with an object, under the id of the request.
* `validate_response`, `validate_errorResponse`: a session returns the result, and raises the error.
* `answer`, `answer_direct`: the answer to a message, and what a session makes of it.
-/

set_option autoImplicit false

namespace Rpr

/-! ## Messages that are not blank -/

theorem stripped_ne_nil {α : Type} {p : α → Bool} {l : List α} {x : α} (hx : x ∈ l) (hp : p x = false) :
    ((l.dropWhile p).reverse.dropWhile p).reverse ≠ [] := by
  have hkept : x ∈ l.dropWhile p := by
    rw [← List.takeWhile_append_dropWhile (p := p) (l := l)] at hx
    refine (List.mem_append.mp hx).resolve_left fun htaken => ?_
    rw [List.mem_takeWhile_imp htaken] at hp
    cases hp
  rw [Ne, List.reverse_eq_nil_iff, List.dropWhile_eq_nil_iff]
  intro hall
  rw [hall x (List.mem_reverse.mpr hkept)] at hp
  cases hp

theorem PyText.length_ofCodes (codes : List ℕ) : (PyText.ofCodes codes).length = codes.length := by
  rw [PyText.ofCodes]
  split_ifs
  · rfl
  · rw [PyText.length, String.length_ofList, List.length_map]

/-- A text that begins with a word is not blank. -/
theorem PyText.strip_append_length {s : String} {c : Char} (hc : c ∈ s.toList) (hspace : isSpace c = false)
    (t : PyText) : (PyText.utf8 s ++ t).strip.length ≠ 0 := by
  change (PyText.append (PyText.utf8 s) t).strip.length ≠ 0
  cases t with
  | utf8 t =>
    rw [PyText.append, PyText.strip, PyText.length, Rpr.strip, String.length_ofList, Ne, List.length_eq_zero_iff]
    refine stripped_ne_nil (x := c) ?_ hspace
    rw [String.toList_append]
    exact List.mem_append_left _ hc
  | lone codes h =>
    have hlone : ∃ n ∈ (PyText.utf8 s).codes ++ (PyText.lone codes h).codes, PyText.isSurrogate n := by
      obtain ⟨n, hn, hsurrogate⟩ := h
      exact ⟨n, List.mem_append_right _ hn, hsurrogate⟩
    change (PyText.ofCodes ((PyText.utf8 s).codes ++ (PyText.lone codes h).codes)).strip.length ≠ 0
    rw [PyText.ofCodes, dif_pos hlone]
    change (PyText.ofCodes _).length ≠ 0
    rw [PyText.length_ofCodes, Ne, List.length_eq_zero_iff]
    refine stripped_ne_nil (x := c.toNat) (List.mem_append_left _ ?_) ?_
    · exact List.mem_map_of_mem hc
    · rw [PyText.isSpaceCode, Char.ofNat_toNat, hspace]

namespace ReadOnlyRprMcpServer

/-! ## What is answered -/

/-- What is returned has a property, and what is raised as an error has a message. -/
def Worded {α : Type} (P : α → Prop) : Except ServerError α → Prop
  | .ok a => P a
  | .error (.rpc e) => e.message.strip.length ≠ 0
  | .error (.raised _) => True

/-- A JSON object. -/
def IsObject (j : Json) : Prop := ∃ fields, j = .obj fields

variable {J : JsonText} {M : ReadModel}

theorem Worded.error {α β : Type} {P : α → Prop} {e : ServerError} (h : Worded P (.error e)) (Q : β → Prop) :
    Worded Q (.error e) := by
  cases e with
  | rpc e => exact h
  | raised e => trivial

theorem Worded.bind {α β : Type} {P : α → Prop} {Q : β → Prop} {r : Except ServerError α}
    {f : α → Except ServerError β} (hr : Worded P r) (hf : ∀ a, P a → Worded Q (f a)) : Worded Q (r >>= f) := by
  cases r with
  | ok a => exact hf a hr
  | error e => exact hr.error Q

theorem emptyParams_worded (params : Json) : Worded (fun _ => True) (emptyParams params) := by
  unfold emptyParams
  split
  · trivial
  · trivial
  · show PyText.length _ ≠ 0
    decide

theorem initializeResult_worded (params : Json) : Worded IsObject (initializeResult params) := by
  unfold initializeResult
  split
  · split_ifs
    · exact ⟨_, rfl⟩
    · show PyText.length _ ≠ 0
      decide
  · show PyText.length _ ≠ 0
    decide

theorem toolResult_worded (value : Json) (isError : Bool) : Worded IsObject (toolResult J value isError) := by
  rw [toolResult]
  cases J.dumps value with
  | error e => trivial
  | ok text => exact ⟨_, rfl⟩

theorem toolFailure_worded (e : ToolError) : Worded IsObject (toolFailure J e) := by
  rw [toolFailure]
  split_ifs
  · cases e.firstArg with
    | some pathwayId => exact toolResult_worded _ _
    | none => trivial
  · exact toolResult_worded _ _
  · trivial

theorem callTool_worded (params : Json) : Worded IsObject (callTool J M params) := by
  cases params with
  | obj fields =>
    rw [callTool]
    split_ifs
    · show PyText.length _ ≠ 0
      decide
    · split
      · split_ifs
        · show PyText.length _ ≠ 0
          decide
        · split
          · split
            · exact toolFailure_worded _
            · exact toolResult_worded _ _
          · show PyText.length _ ≠ 0
            decide
      · show PyText.length _ ≠ 0
        decide
  | _ =>
    show PyText.length _ ≠ 0
    decide

/-- An answer is a response under this id with an object for its result, or there is none. -/
def Answers (requestId : Json) (answer : Option Json) : Prop :=
  ∀ j ∈ answer, ∃ fields, j = response requestId (.obj fields)

theorem answers_response {requestId result : Json} (h : IsObject result) :
    Answers requestId (some (response requestId result)) := by
  rintro j hj
  obtain ⟨fields, rfl⟩ := h
  exact ⟨fields, (Option.mem_some.mp hj).symm⟩

theorem handleMethod_worded (method : PyText) (requestId params : Json) (s : ReadOnlyRprMcpServer) :
    Worded (Answers requestId) (s.handleMethod J M method requestId params).1 := by
  rw [handleMethod]
  by_cases h₁ : method = "notifications/initialized"
  · rw [if_pos h₁]
    have hparams := emptyParams_worded params
    cases hempty : emptyParams params with
    | error e => exact (hempty ▸ hparams).error _
    | ok u =>
      by_cases hseen : s.initializeSeen = false
      · rw [if_pos hseen]
        show PyText.length _ ≠ 0
        decide
      · rw [if_neg hseen]
        exact fun j hj => absurd hj (by simp)
  rw [if_neg h₁]
  by_cases h₂ : method = "initialize"
  · rw [if_pos h₂]
    have hresult := initializeResult_worded params
    cases hinit : initializeResult params with
    | error e => exact (hinit ▸ hresult).error _
    | ok result =>
      rw [hinit] at hresult
      exact answers_response hresult
  rw [if_neg h₂]
  split_ifs
  · show PyText.length _ ≠ 0
    decide
  · exact (emptyParams_worded params).bind fun _ _ => answers_response ⟨_, rfl⟩
  · exact (emptyParams_worded params).bind fun _ _ => answers_response ⟨_, rfl⟩
  · exact (callTool_worded params).bind fun _ h => answers_response h
  · exact PyText.strip_append_length (c := 'm') (by decide) (by decide) method

/-- **The server answers** with an object under the id of the request, and every error has a message. -/
theorem handle_worded (fields : JsonObject) (s : ReadOnlyRprMcpServer) :
    Worded (Answers (JsonObject.get fields "id")) (s.handle J M (.obj fields)).1 := by
  rw [handle]
  split_ifs
  · show PyText.length _ ≠ 0
    decide
  · split
    · split_ifs
      · show PyText.length _ ≠ 0
        decide
      · exact handleMethod_worded _ _ _ s
    · show PyText.length _ ≠ 0
      decide

/-! ## What a session makes of it -/

variable {objects : PyObjects}

theorem idMatches_self (id : ℕ) : McpJsonRpcSession.idMatches objects (.int id) id = .ok true :=
  congrArg Except.ok (beq_self_eq_true (id : ℤ))

section Outcome

variable {value : PyDict} {id : ℕ} (hversion : McpJsonRpcSession.versionMatches objects value = .ok true)
  (hid : value.get? "id" = some (.int id))
  (hextras : McpJsonRpcSession.extras ["jsonrpc", "id", "result", "error"] value = [])

include hversion hid hextras

/-- A response to this request with a result and nothing else. -/
theorem validateFields_result {result : PyDict} (hresult : value.get? "result" = some (.dict result))
    (herror : value.get? "error" = none) : McpJsonRpcSession.validateFields objects value id = .ok result := by
  rw [McpJsonRpcSession.validateFields, hversion]
  dsimp only
  rw [hid]
  dsimp only
  rw [idMatches_self]
  dsimp only
  rw [hresult, herror, if_neg (by simp), hextras]

/-- A response to this request with an error and nothing else. -/
theorem validateFields_error {error : PyValue} (hresult : value.get? "result" = none)
    (herror : value.get? "error" = some error) : McpJsonRpcSession.validateFields objects value id =
      .error (McpJsonRpcSession.remoteError objects error) := by
  rw [McpJsonRpcSession.validateFields, hversion]
  dsimp only
  rw [hid]
  dsimp only
  rw [idMatches_self]
  dsimp only
  rw [hresult, herror, if_neg (by simp), hextras]

end Outcome

/-- A result is returned. -/
theorem validate_response (id : ℕ) (result : JsonObject) :
    McpJsonRpcSession.validateResponse objects (.ofJson (response (.int id) (.obj result))) id =
      .ok (PyValue.ofJsonFields result) := by
  rw [response, PyValue.ofJson, McpJsonRpcSession.validateResponse]
  exact validateFields_result rfl rfl rfl rfl rfl

/-- What a session raises for an error with a message. -/
theorem remoteError_message {error : PyDict} {code : ℤ} {message : PyText} (hmessage : message.strip.length ≠ 0)
    (hcode : error.get? "code" = some (.int code)) (htext : error.get? "message" = some (.str message))
    (hextras : McpJsonRpcSession.extras ["code", "message", "data"] error = []) :
    McpJsonRpcSession.remoteError objects (.dict error) = mcpJsonRpcRemoteError code message.strip := by
  rw [McpJsonRpcSession.remoteError, hcode]
  dsimp only
  rw [htext]
  dsimp only
  rw [if_neg hmessage, hextras]

/-- An error is raised. -/
theorem validate_errorResponse (id : ℕ) {e : JsonRpcError} (he : e.message.strip.length ≠ 0) :
    McpJsonRpcSession.validateResponse objects (.ofJson (errorResponse (.int id) e)) id = .error (remote e) := by
  obtain ⟨code, message, data⟩ := e
  cases data with
  | none =>
    rw [errorResponse, PyValue.ofJson, McpJsonRpcSession.validateResponse]
    refine (validateFields_error rfl rfl rfl rfl rfl).trans (congrArg Except.error ?_)
    exact remoteError_message he rfl rfl rfl
  | some data =>
    rw [errorResponse, PyValue.ofJson, McpJsonRpcSession.validateResponse]
    refine (validateFields_error rfl rfl rfl rfl rfl).trans (congrArg Except.error ?_)
    exact remoteError_message he rfl rfl rfl

/-! ## The answer to a message -/

variable (J M) in
/-- The answer to an object, and the server after it. -/
def answer (message : JsonObject) (s : ReadOnlyRprMcpServer) : Option Json × ReadOnlyRprMcpServer :=
  match s.handle J M (.obj message) with
  | (.ok answer, s) => (answer, s)
  | (.error e, s) => (if isNotification (.obj message) then none
      else some (errorResponse (requestIdOf (.obj message)) (errorOf e)), s)

/-- A line with an object is answered so. -/
theorem respond_message {line : PyText} {message : JsonObject} (h : J.loads line = .ok (.obj message))
    (s : ReadOnlyRprMcpServer) : s.respond J M line = s.answer J M message := by
  have hhandles := handle_handles (J := J) (M := M) message s
  rw [respond, h, answer]
  dsimp only
  rcases hhandle : s.handle J M (.obj message) with ⟨r, s'⟩
  rw [hhandle] at hhandles
  cases r with
  | ok answer => rfl
  | error e =>
    cases e with
    | rpc e => rfl
    | raised e => simp [hhandles.notDecode e rfl, errorOf]

theorem direct_snd (message : JsonObject) (s : ReadOnlyRprMcpServer) :
    (s.direct J M message).2 = (s.answer J M message).2 := by
  rw [direct, answer]
  rcases s.handle J M (.obj message) with ⟨r | r, s'⟩ <;> rfl

variable (objects) in
/-- **A session makes of the answer to a request** what `handle` made of the request. -/
theorem answer_direct {id : ℕ} {method : PyText} {params : JsonObject} {s : ReadOnlyRprMcpServer} {j : Json}
    (h : (s.answer J M ((RpcCall.request method params).message id)).1 = some j) :
    (s.direct J M ((RpcCall.request method params).message id)).1 =
      (McpJsonRpcSession.validateResponse objects (.ofJson j) id).map some := by
  have hworded := handle_worded (J := J) (M := M) ((RpcCall.request method params).message id) s
  rw [answer] at h
  rw [direct]
  rcases hhandle : s.handle J M (.obj ((RpcCall.request method params).message id)) with ⟨r, s'⟩
  rw [hhandle] at hworded h
  cases r with
  | ok answer =>
    dsimp only at h
    subst h
    obtain ⟨result, rfl⟩ := hworded j rfl
    exact (congrArg (Except.map some) (validate_response id result)).symm
  | error e =>
    obtain rfl := Option.some.inj h
    have hmessage : (errorOf e).message.strip.length ≠ 0 := by
      cases e with
      | rpc e => exact hworded
      | raised e =>
        change (PyText.utf8 "internal error").strip.length ≠ 0
        decide
    exact (congrArg (Except.map some) (validate_errorResponse id hmessage)).symm

end ReadOnlyRprMcpServer

end Rpr
