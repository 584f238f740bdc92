import PathwayRuntime.Model.Server
import PathwayRuntime.Python.Loaded
import PathwayRuntime.Stdio.Json

/-!
# One reply for every request

* `due`: the id of the response a line asks for, if it asks for one.
* `Confirms`, `Accepts`: the messages `handle` answers with nothing, and with a result.
* `Orderly`: no request confirms, and nothing without an id is accepted.
* `handle_handles`: what `handle` returns for an object; `respond_due`: one line.
* **`runStdio_served`**: a run serves its lines exactly when all of them are orderly.
* `confirmed_request`: a request that is never answered.
-/

set_option autoImplicit false

namespace Rpr

namespace ReadOnlyRprMcpServer

variable (J : JsonText) (M : ReadModel)

/-! ## What is due -/

/-- The id of the response to a line: an object is answered under its id, if it has one, and what is no
object under `null`. -/
def due (turn : Turn) : Option Json :=
  if turn.blank then none
  else
    match J.value turn.line with
    | some (.obj fields) => fields.lookup (PyText.utf8 "id")
    | _ => some .null

/-- `response["id"]`. -/
def responseId (answer : Json) : Option Json := answer.get? "id"

/-- The run returned, and wrote for every line the one response that is due, or nothing. -/
structure Served (turns : List Turn) (run : StdioRun) : Prop where
  returned : run.raised = none
  replies : List.Forall₂ (fun turn written => written.map responseId = (due J turn).toList.map some)
    turns run.written

/-! ## When that is so -/

/-- The version of JSON-RPC and the method are these. -/
def Calls (fields : JsonObject) (method : String) : Prop :=
  (JsonObject.get fields "jsonrpc").isText "2.0" = true ∧ JsonObject.get fields "method" = .str method

/-- The message `notifications/initialized`, once `initialize` was answered. -/
def Confirms (fields : JsonObject) (s : ReadOnlyRprMcpServer) : Prop :=
  Calls fields "notifications/initialized" ∧ emptyParams (JsonObject.get fields "params") = .ok () ∧
    s.initializeSeen = true

/-- A message that has a result: `initialize` with the version of the protocol, and after the handshake
`ping` and `tools/list` without parameters, and `tools/call` if `_call_tool` returns. -/
def Accepts (fields : JsonObject) (s : ReadOnlyRprMcpServer) : Prop :=
  Calls fields "initialize" ∧ (∃ result, initializeResult (JsonObject.get fields "params") = .ok result) ∨
    s.initialized = true ∧
      ((Calls fields "ping" ∨ Calls fields "tools/list") ∧
          emptyParams (JsonObject.get fields "params") = .ok () ∨
        Calls fields "tools/call" ∧ ∃ result, callTool J M (JsonObject.get fields "params") = .ok result)

/-- A line that is answered as it is due: no message with an id confirms, none without an id is accepted;
and `json.loads` raises anything but a `JSONDecodeError` only where the response is due under `null`. -/
def Fits (turn : Turn) (s : ReadOnlyRprMcpServer) : Prop :=
  match J.loads turn.line with
  | .ok (.obj fields) =>
    if (fields.lookup (PyText.utf8 "id")).isSome then ¬ Confirms fields s
    else ¬ Accepts J turn.readModel fields s
  | .ok _ => True
  | .error e => e.isA "JSONDecodeError" = true ∨ due J turn = some .null

/-- Every line fits the server it meets, and every response that is due can be written. -/
def Orderly : List Turn → ReadOnlyRprMcpServer → Prop
  | [], _ => True
  | turn :: turns, s =>
    (turn.blank = true ∨ Fits J turn s ∧ (due J turn ≠ none → turn.writeError = none)) ∧
      Orderly turns (turn.after J s)

/-! ## The methods -/

variable {J M}

/-- An exception that is no `JSONDecodeError`. -/
def NotDecode {α : Type} (r : Except ServerError α) : Prop :=
  ∀ e, r = .error (.raised e) → e.isA "JSONDecodeError" = false

theorem notDecode_ok {α : Type} (a : α) : NotDecode (.ok a) := fun _ h => (nomatch h)

theorem notDecode_rpc {α : Type} (code : ℤ) (message : PyText) : NotDecode (rpcError (α := α) code message) :=
  fun _ h => (nomatch h)

theorem emptyParams_notDecode (params : Json) : NotDecode (emptyParams params) := by
  unfold emptyParams
  split
  · exact notDecode_ok _
  · exact notDecode_ok _
  · exact notDecode_rpc _ _

theorem initializeResult_notDecode (params : Json) : NotDecode (initializeResult params) := by
  unfold initializeResult
  split
  · split_ifs
    · exact notDecode_ok _
    · exact notDecode_rpc _ _
  · exact notDecode_rpc _ _

theorem toolResult_notDecode (value : Json) (isError : Bool) : NotDecode (toolResult J value isError) := by
  intro e h
  rw [toolResult] at h
  cases hdumps : J.dumps value with
  | error e' =>
    rw [hdumps] at h
    obtain rfl := ServerError.raised.inj (Except.error.inj h)
    exact J.dumps_error value e' hdumps
  | ok text =>
    rw [hdumps] at h
    cases h

theorem toolFailure_notDecode (e : ToolError) : NotDecode (toolFailure J e) := by
  rw [toolFailure]
  split_ifs with hkey hvalue
  · cases e.firstArg with
    | some pathwayId => exact toolResult_notDecode _ _
    | none =>
      intro e' h
      obtain rfl := ServerError.raised.inj (Except.error.inj h)
      rfl
  · exact toolResult_notDecode _ _
  · intro e' h
    obtain rfl := ServerError.raised.inj (Except.error.inj h)
    -- A `JSONDecodeError` is a `ValueError`, which became a result.
    by_contra hdecode
    have hany : e.exception.isA "ValueError" = true := e.isValueError (by simpa using hdecode)
    exact hvalue (by simp [PyException.isAny, hany])

theorem callTool_notDecode (params : Json) : NotDecode (callTool J M params) := by
  cases params with
  | obj fields =>
    rw [callTool]
    split_ifs
    · exact notDecode_rpc _ _
    · split
      · split_ifs
        · exact notDecode_rpc _ _
        · split
          · split
            · exact toolFailure_notDecode _
            · exact toolResult_notDecode _ _
          · exact notDecode_rpc _ _
      · exact notDecode_rpc _ _
  | _ => exact notDecode_rpc _ _

/-! ## Handling an object -/

/-- What `handle` returns for an object: nothing when it confirms, a result under its id when it is accepted,
and otherwise it raises. -/
structure Handles (J : JsonText) (M : ReadModel) (fields : JsonObject) (s : ReadOnlyRprMcpServer)
    (r : Except ServerError (Option Json)) : Prop where
  quiet : r = .ok none ↔ Confirms fields s
  accepted : (∃ answer, r = .ok (some answer)) ↔ Accepts J M fields s
  id : ∀ answer, r = .ok (some answer) → responseId answer = some (JsonObject.get fields "id")
  notDecode : NotDecode r

variable {fields : JsonObject} {s : ReadOnlyRprMcpServer}

theorem handles_error {e : ServerError} (hconfirms : ¬ Confirms fields s) (haccepts : ¬ Accepts J M fields s)
    (he : NotDecode (α := Option Json) (.error e)) : Handles J M fields s (.error e) :=
  ⟨iff_of_false (fun h => (nomatch h)) hconfirms, iff_of_false (fun ⟨_, h⟩ => (nomatch h)) haccepts,
    fun _ h => (nomatch h), he⟩

/-- A method whose result may be absent, when nothing else decides whether the message is accepted. -/
theorem handles_result {r : Except ServerError Json} (hconfirms : ¬ Confirms fields s)
    (haccepts : Accepts J M fields s ↔ ∃ result, r = .ok result) (hr : NotDecode r) :
    Handles J M fields s (do let result ← r; pure (some (response (JsonObject.get fields "id") result))) := by
  cases r with
  | error e =>
    refine ⟨iff_of_false (fun h => (nomatch h)) hconfirms, iff_of_false (fun ⟨_, h⟩ => (nomatch h)) ?_,
      fun _ h => (nomatch h), fun e' h => hr e' (congrArg _ (Except.error.inj h))⟩
    exact fun h => (nomatch haccepts.mp h)
  | ok result =>
    refine ⟨iff_of_false (fun h => (nomatch h)) hconfirms, iff_of_true ⟨_, rfl⟩ (haccepts.mpr ⟨result, rfl⟩),
      fun answer h => ?_, notDecode_ok _⟩
    obtain rfl := Option.some.inj (Except.ok.inj h)
    rfl

/-- A method without parameters. -/
theorem handles_params (hconfirms : ¬ Confirms fields s) {params : Json}
    (haccepts : Accepts J M fields s ↔ emptyParams params = .ok ()) (result : Json) : Handles J M fields s
      (do emptyParams params; pure (some (response (JsonObject.get fields "id") result))) := by
  have hr : NotDecode (do emptyParams params; pure result : Except ServerError Json) := by
    have hempty := emptyParams_notDecode params
    cases hp : emptyParams params with
    | error e => exact fun e' h => hempty e' (hp.trans (congrArg _ (Except.error.inj h)))
    | ok u => exact notDecode_ok _
  have h := handles_result (J := J) (M := M) hconfirms (r := do emptyParams params; pure result) (by
    rw [haccepts]
    cases emptyParams params with
    | error e => exact iff_of_false (fun h => (nomatch h)) fun ⟨_, h⟩ => (nomatch h)
    | ok u => exact iff_of_true rfl ⟨_, rfl⟩) hr
  cases hp : emptyParams params with
  | error e =>
    rw [hp] at h
    exact h
  | ok u =>
    rw [hp] at h
    exact h

/-- **One message with a method.** -/
theorem handleMethod_handles {method : PyText} (hversion : (JsonObject.get fields "jsonrpc").isText "2.0" = true)
    (hmethod : JsonObject.get fields "method" = .str method) : Handles J M fields s
      (s.handleMethod J M method (JsonObject.get fields "id") (JsonObject.get fields "params")).1 := by
  have hcalls : ∀ name : String, Calls fields name ↔ method = name := by
    intro name
    rw [Calls, hmethod, Json.str.injEq]
    exact and_iff_right hversion
  have hconfirms : Confirms fields s ↔ method = "notifications/initialized" ∧
      emptyParams (JsonObject.get fields "params") = .ok () ∧ s.initializeSeen = true := by
    rw [Confirms, hcalls]
  have haccepts : Accepts J M fields s ↔
      method = "initialize" ∧ (∃ result, initializeResult (JsonObject.get fields "params") = .ok result) ∨
        s.initialized = true ∧ ((method = "ping" ∨ method = "tools/list") ∧
            emptyParams (JsonObject.get fields "params") = .ok () ∨
          method = "tools/call" ∧ ∃ result, callTool J M (JsonObject.get fields "params") = .ok result) := by
    simp only [Accepts, hcalls]
  rw [handleMethod]
  by_cases h₁ : method = "notifications/initialized"
  · subst h₁
    have haccepts' : ¬ Accepts J M fields s := by simp [haccepts]
    rw [if_pos rfl]
    cases hparams : emptyParams (JsonObject.get fields "params") with
    | error e =>
      refine handles_error (by simp [hconfirms, hparams]) haccepts' fun e' h => ?_
      exact emptyParams_notDecode _ e' (hparams.trans (congrArg _ (Except.error.inj h)))
    | ok u =>
      by_cases hseen : s.initializeSeen = false
      · rw [if_pos hseen]
        exact handles_error (by simp [hconfirms, hseen]) haccepts' fun _ h => (nomatch h)
      · rw [if_neg hseen]
        exact ⟨iff_of_true rfl (hconfirms.mpr ⟨rfl, hparams, by simpa using hseen⟩),
          iff_of_false (fun ⟨_, h⟩ => (nomatch h)) haccepts', fun _ h => (nomatch h), notDecode_ok _⟩
  have hconfirms' : ¬ Confirms fields s := by simp [hconfirms, h₁]
  rw [if_neg h₁]
  by_cases h₂ : method = "initialize"
  · subst h₂
    rw [if_pos rfl]
    have hresult : Accepts J M fields s ↔
        ∃ result, initializeResult (JsonObject.get fields "params") = .ok result := by
      simp [haccepts]
    have h := handles_result hconfirms' hresult (initializeResult_notDecode _)
    cases hinit : initializeResult (JsonObject.get fields "params") with
    | error e =>
      rw [hinit] at h
      exact h
    | ok result =>
      rw [hinit] at h
      exact h
  rw [if_neg h₂]
  by_cases h₃ : s.initialized = false
  · rw [if_pos h₃]
    exact handles_error hconfirms' (by simp [haccepts, h₂, h₃]) fun _ h => (nomatch h)
  have hready : s.initialized = true := by simpa using h₃
  rw [if_neg h₃]
  by_cases h₄ : method = "ping"
  · subst h₄
    rw [if_pos rfl]
    exact handles_params hconfirms' (by simp [haccepts, hready]) _
  rw [if_neg h₄]
  by_cases h₅ : method = "tools/list"
  · subst h₅
    rw [if_pos rfl]
    exact handles_params hconfirms' (by simp [haccepts, hready]) _
  rw [if_neg h₅]
  by_cases h₆ : method = "tools/call"
  · subst h₆
    rw [if_pos rfl]
    exact handles_result hconfirms' (by simp [haccepts, hready]) (callTool_notDecode _)
  · rw [if_neg h₆]
    exact handles_error hconfirms' (by simp [haccepts, h₂, h₄, h₅, h₆]) fun _ h => (nomatch h)

/-- **One message.** -/
theorem handle_handles (fields : JsonObject) (s : ReadOnlyRprMcpServer) :
    Handles J M fields s (s.handle J M (.obj fields)).1 := by
  -- What confirms or is accepted has a version and a method that is not empty.
  have hrefused : ∀ e, (∀ name : String, Calls fields name → (PyText.utf8 name).length = 0) →
      NotDecode (α := Option Json) (.error e) → Handles J M fields s (.error e) := by
    intro e hcalls he
    refine handles_error ?_ ?_ he
    · exact fun h => absurd (hcalls _ h.1) (by decide)
    · rintro (⟨h, -⟩ | ⟨-, ⟨h | h, -⟩ | ⟨h, -⟩⟩)
      all_goals exact absurd (hcalls _ h) (by decide)
  rw [handle]
  by_cases hversion : (JsonObject.get fields "jsonrpc").isText "2.0" = false
  · rw [if_pos hversion]
    refine hrefused _ (fun name h => ?_) fun _ h => (nomatch h)
    rw [h.1] at hversion
    cases hversion
  rw [if_neg hversion]
  cases hmethod : JsonObject.get fields "method" with
  | str method =>
    dsimp only
    by_cases hempty : method.length = 0
    · rw [if_pos hempty]
      refine hrefused _ (fun name h => ?_) fun _ h => (nomatch h)
      obtain rfl := Json.str.inj (hmethod.symm.trans h.2)
      exact hempty
    · rw [if_neg hempty]
      exact handleMethod_handles (by simpa using hversion) hmethod
  | _ =>
    refine hrefused _ (fun name h => ?_) fun _ h => (nomatch h)
    cases hmethod.symm.trans h.2

/-! ## Lines and runs -/

theorem get_of_lookup {fields : JsonObject} {key : String} {value : Json}
    (h : fields.lookup (PyText.utf8 key) = some value) : JsonObject.get fields key = value := by
  rw [JsonObject.get, h]
  rfl

/-- The response to an object is due under its id. -/
theorem due_obj {turn : Turn} {fields : JsonObject} (hblank : turn.blank = false)
    (hloads : J.loads turn.line = .ok (.obj fields)) : due J turn = fields.lookup (PyText.utf8 "id") := by
  rw [due, hblank, J.loads_ok _ _ hloads]
  rfl

/-- **One line** is answered as it is due exactly when it fits. -/
theorem respond_due {turn : Turn} (hblank : turn.blank = false) (s : ReadOnlyRprMcpServer) :
    (s.respond J turn.readModel turn.line).1.map responseId = (due J turn).map some ↔ Fits J turn s := by
  rw [respond, Fits]
  cases hloads : J.loads turn.line with
  | error e =>
    dsimp only
    by_cases hdecode : e.isA "JSONDecodeError" = true
    · have hdue : due J turn = some .null := by
        rw [due, hblank, J.loads_decodeError _ _ hloads hdecode]
        rfl
      rw [if_pos hdecode, hdue]
      exact iff_of_true rfl (.inl hdecode)
    · rw [if_neg hdecode, or_iff_right hdecode]
      change some (some Json.null) = _ ↔ _
      cases due J turn with
      | none => simp
      | some id => simp [eq_comm]
  | ok request =>
    cases request with
    | obj fields =>
      rw [due_obj hblank hloads]
      obtain ⟨hquiet, haccepted, hid, hdecode⟩ := handle_handles (J := J) (M := turn.readModel) fields s
      cases hhandle : s.handle J turn.readModel (.obj fields) with
      | mk r s' =>
        rw [hhandle] at hquiet haccepted hid hdecode
        cases hkey : fields.lookup (PyText.utf8 "id") with
        | none =>
          have hnotification : isNotification (.obj fields) = true := by rw [isNotification, hkey]; rfl
          simp only [hhandle, hkey, hnotification, if_true, Option.isSome_none, Bool.false_eq_true, if_false,
            Option.map_none]
          match r with
          | .ok none => exact iff_of_true rfl fun h => (nomatch haccepted.mpr h)
          | .ok (some answer) => exact iff_of_false (by simp) fun h => h (haccepted.mp ⟨answer, rfl⟩)
          | .error (.rpc e) => exact iff_of_true rfl fun h => (nomatch haccepted.mpr h)
          | .error (.raised e) =>
            simp only [hdecode e rfl, Bool.false_eq_true, if_false]
            exact iff_of_true rfl fun h => (nomatch haccepted.mpr h)
        | some id =>
          have hget : requestIdOf (.obj fields) = id := get_of_lookup hkey
          have hnotification : isNotification (.obj fields) = false := by rw [isNotification, hkey]; rfl
          simp only [hhandle, hkey, hnotification, Bool.false_eq_true, if_false, Option.isSome_some, if_true,
            Option.map_some]
          match r with
          | .ok none => exact iff_of_false (by simp) fun h => h (hquiet.mp rfl)
          | .ok (some answer) =>
            refine iff_of_true ?_ fun h => (nomatch hquiet.mpr h)
            rw [Option.map_some, hid answer rfl, get_of_lookup hkey]
          | .error (.rpc e) => exact iff_of_true (congrArg (some ∘ some) hget) fun h => (nomatch hquiet.mpr h)
          | .error (.raised e) =>
            simp only [hdecode e rfl, Bool.false_eq_true, if_false]
            exact iff_of_true (congrArg (some ∘ some) hget) fun h => (nomatch hquiet.mpr h)
    | _ =>
      have hdue : due J turn = some .null := by
        rw [due, hblank, J.loads_ok _ _ hloads]
        rfl
      rw [hdue]
      exact iff_of_true rfl trivial

theorem served_cons {turn : Turn} {turns : List Turn} {written : List Json} {run : StdioRun} :
    Served J (turn :: turns) (run.cons written) ↔
      written.map responseId = (due J turn).toList.map some ∧ Served J turns run := by
  constructor
  · rintro ⟨hreturned, hreplies⟩
    obtain ⟨hfirst, hrest⟩ := List.forall₂_cons.mp hreplies
    exact ⟨hfirst, hreturned, hrest⟩
  · rintro ⟨hfirst, hreturned, hrest⟩
    exact ⟨hreturned, .cons hfirst hrest⟩

theorem toList_map_some {α β : Type} {a : Option α} {b : Option β} {f : α → Option β} :
    a.toList.map f = b.toList.map some ↔ a.map f = b.map some := by
  cases a <;> cases b <;> simp

/-- **One reply for every request.** For every sequence of lines and every server, `run_stdio` returns and
writes for each line exactly the response that is due if and only if each line fits the server it meets and
the responses that are due can be written. -/
theorem runStdio_served (J : JsonText) (turns : List Turn) (s : ReadOnlyRprMcpServer) :
    Served J turns (runStdio J turns s) ↔ Orderly J turns s := by
  induction turns generalizing s with
  | nil => exact iff_of_true ⟨rfl, .nil⟩ trivial
  | cons turn turns ih =>
    rw [Orderly, runStdio, Turn.after]
    by_cases hblank : turn.blank = true
    · rw [if_pos hblank, if_pos hblank, served_cons, ih, due, if_pos hblank]
      exact and_congr_left fun _ => iff_of_true rfl (.inl hblank)
    rw [if_neg hblank, if_neg hblank, or_iff_right hblank]
    have hline := respond_due (J := J) (by simpa using hblank) s
    cases hrespond : s.respond J turn.readModel turn.line with
    | mk answer s' =>
      rw [hrespond] at hline
      dsimp only at hline ⊢
      cases answer with
      | none =>
        rw [served_cons, ih]
        refine and_congr_left fun _ => ?_
        rw [← hline, ← toList_map_some]
        refine ⟨fun h => ⟨h, fun hdue => absurd ?_ hdue⟩, fun h => h.1⟩
        simpa using h.symm
      | some answer =>
        dsimp only
        cases hwrite : turn.writeError with
        | none =>
          dsimp only
          rw [served_cons, ih, ← hline, ← toList_map_some]
          exact and_congr_left fun _ => ⟨fun h => ⟨h, fun _ => rfl⟩, fun h => h.1⟩
        | some e =>
          refine iff_of_false (fun h => (nomatch h.returned)) ?_
          rintro ⟨⟨hfits, hwritten⟩, -⟩
          have hdue : due J turn ≠ none := by
            intro hnone
            rw [← hline, hnone] at hfits
            cases hfits
          cases hwritten hdue

/-! ## A request without a reply -/

/-- `json.loads` of a text; no tool is called, so nothing is written before a response. -/
def plainLoads : PyText → Except PyException Json
  | .utf8 s => loads .sample defaultHooks s.toList
  | .lone _ _ => .error (jsonDecodeError .sample [])

def plainJson : JsonText where
  loads := plainLoads
  value text := (plainLoads text).toOption
  dumps _ := .ok "\x7b\x7d"
  loads_ok text j h := by rw [h]; rfl
  loads_decodeError text e h _ := by rw [h]; rfl
  dumps_error j e h := by cases h

/-- A database without pathways. -/
def emptyModel : ReadModel where
  status := .ok (.obj [])
  listPathways _ := .ok (.arr [])
  getPathway _ := .error (toolValueError "pathway_id must be a non-empty string")
  getRouteVisibility _ := .error (toolValueError "pathway_id must be a non-empty string")
  getEvidence _ _ := .error (toolValueError "pathway_id must be a non-empty string")
  listUnresolved _ := .ok (.arr [])

/-- `initialize`, and `notifications/initialized` sent as a request. -/
def confirmedTurns : List Turn :=
  ["\x7b\"jsonrpc\":\"2.0\",\"id\":1,\"method\":\"initialize\",\"params\":\x7b\"protocolVersion\":\"2025-11-25\"\x7d\x7d\n",
    "\x7b\"jsonrpc\":\"2.0\",\"id\":2,\"method\":\"notifications/initialized\"\x7d\n"].map
    fun line => ⟨PyText.utf8 line, emptyModel, none⟩

/-- Where every line has the responses that are due, it has as many. -/
theorem lengths_of_replies {turns : List Turn} {written : List (List Json)}
    (h : List.Forall₂ (fun turn written => written.map responseId = (due J turn).toList.map some) turns written) :
    written.map List.length = turns.map fun turn => (due J turn).toList.length := by
  induction h with
  | nil => rfl
  | cons hfirst _ ih =>
    have hlength := congrArg List.length hfirst
    rw [List.length_map, List.length_map] at hlength
    rw [List.map_cons, List.map_cons, ih, hlength]

/-- **A request with id `2` that is never answered.** -/
theorem confirmed_request : ¬ Served plainJson confirmedTurns (runStdio plainJson confirmedTurns fresh) := by
  intro h
  have hwritten : (runStdio plainJson confirmedTurns fresh).written.map List.length = [1, 0] := by
    decide +kernel
  have hdue : (confirmedTurns.map fun turn => (due plainJson turn).toList.length) = [1, 1] := by
    decide +kernel
  rw [lengths_of_replies h.replies, hdue] at hwritten
  exact absurd hwritten (by decide)

end ReadOnlyRprMcpServer

end Rpr
