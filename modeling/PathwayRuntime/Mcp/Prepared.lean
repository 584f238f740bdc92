import PathwayRuntime.Model.Prepare

/-!
# Preparation fails only before dispatch

* `RaisesAdmission`: a validator raises nothing but `McpAdmissionError`; one lemma for each validator.
* `ReachesUnhashable`: the loop over the tools comes to a `required` list that has an array or an object.
* `McpStableOrchestrator.PreparesBeforeDispatch`: `prepare` returns or raises `McpPreDispatchError`, and sends the
  three methods of preparation in order.
* **`prepare_iff`**: it does exactly when the loop is not reached or does not come to such a list.
* `nestedRequired_raises`: a server whose schema requires a list.
-/

set_option autoImplicit false

namespace Rpr

/-! ## Strict JSON -/

section RaisesAdmission

variable {α β : Type}

/-- What the computation raises is a `McpAdmissionError`. -/
abbrev RaisesAdmission (x : Except PyException α) : Prop := Raises (fun e => e.isA "McpAdmissionError" = true) x

theorem admits_error (message : PyText) : RaisesAdmission (.error (mcpAdmissionError message) : Except PyException α) :=
  raises_error.mpr rfl

/-- A check that raises a `McpAdmissionError`. -/
theorem admits_ite {p : Prop} [Decidable p] {message : PyText} {x : Except PyException α} (h : RaisesAdmission x) :
    RaisesAdmission (if p then .error (mcpAdmissionError message) else x) := by
  split_ifs
  · exact admits_error message
  · exact h

theorem utf8Size_admits (s : PyText) : RaisesAdmission (utf8Size s) := by
  cases s with
  | utf8 s => exact raises_ok _
  | lone codes h => exact admits_error _

theorem addStringBytes_admits (path : String) (n : ℕ) (b : JsonBudget) : RaisesAdmission (b.addStringBytes path n) :=
  admits_ite (raises_ok _)

theorem consume_admits (path : String) (n : ℕ) (b : JsonBudget) : RaisesAdmission (b.consume path n) :=
  admits_ite (addStringBytes_admits path n _)

theorem checkJsonNesting_admits (path : String) (depth : ℕ) : RaisesAdmission (checkJsonNesting path depth) :=
  admits_ite (raises_ok _)

mutual
theorem strictJsonPlain_admits (path : String) (depth : ℕ) (v : PyValue) (b : JsonBudget) :
    RaisesAdmission (strictJsonPlain path depth v b) := by
  cases v with
  | none | bool _ | int _ =>
    rw [strictJsonPlain]
    exact (consume_admits path 0 b).bind fun _ _ => raises_ok _
  | str s =>
    rw [strictJsonPlain]
    exact (utf8Size_admits s).bind fun n _ => (consume_admits path n b).bind fun _ _ => raises_ok _
  | float x =>
    rw [strictJsonPlain]
    refine (consume_admits path 0 b).bind fun _ _ => ?_
    split_ifs
    · exact raises_ok _
    · exact admits_error _
  | dict fields =>
    rw [strictJsonPlain]
    exact (consume_admits path 0 b).bind fun b _ => (checkJsonNesting_admits path depth).bind fun _ _ =>
      (strictJsonPlainFields_admits path (depth + 1) fields [] b).bind fun _ _ => raises_ok _
  | list items | tuple items =>
    rw [strictJsonPlain]
    exact (consume_admits path 0 b).bind fun b _ => (checkJsonNesting_admits path depth).bind fun _ _ =>
      (strictJsonPlainItems_admits path (depth + 1) 0 items b).bind fun _ _ => raises_ok _
  | object typeName form =>
    rw [strictJsonPlain]
    exact (consume_admits path 0 b).bind fun _ _ => admits_error _

theorem strictJsonPlainItems_admits (path : String) (depth index : ℕ) (items : List PyValue) (b : JsonBudget) :
    RaisesAdmission (strictJsonPlainItems path depth index items b) := by
  cases items with
  | nil =>
    rw [strictJsonPlainItems]
    exact raises_ok _
  | cons item items =>
    rw [strictJsonPlainItems]
    exact (strictJsonPlain_admits _ depth item b).bind fun r _ =>
      (strictJsonPlainItems_admits path depth (index + 1) items r.2).bind fun _ _ => raises_ok _

theorem strictJsonPlainFields_admits (path : String) (depth : ℕ) (fields : List (PyKey × PyValue))
    (result : List (PyText × Json)) (b : JsonBudget) :
    RaisesAdmission (strictJsonPlainFields path depth fields result b) := by
  cases fields with
  | nil =>
    rw [strictJsonPlainFields]
    exact raises_ok _
  | cons field fields =>
    obtain ⟨key, item⟩ := field
    cases key with
    | other form =>
      rw [strictJsonPlainFields]
      exact admits_error _
    | str key =>
      rw [strictJsonPlainFields]
      exact (utf8Size_admits key).bind fun n _ => (addStringBytes_admits path n b).bind fun b _ =>
        (strictJsonPlain_admits _ depth item b).bind fun r _ =>
          strictJsonPlainFields_admits path depth fields _ r.2
end

theorem strictJsonDocument_admits (v : PyValue) (path : String) : RaisesAdmission (strictJsonDocument v path) := by
  refine (strictJsonPlain_admits path 0 v ⟨0, 0⟩).bind ?_
  rintro ⟨plain, _⟩ -
  dsimp only
  cases plain.canonical with
  | none => exact admits_error _
  | some encoded => exact admits_ite (raises_ok _)

/-! ## The validators -/

theorem requiredMapping_admits (field : PyText) (value : Option Json) :
    RaisesAdmission (requiredMapping field value) := by
  unfold requiredMapping
  split
  · exact raises_ok _
  · exact admits_error _

theorem requiredText_admits (field : PyText) (value : Option Json) : RaisesAdmission (requiredText field value) := by
  unfold requiredText
  split
  · exact admits_ite (raises_ok _)
  · exact admits_error _

theorem requiredField_admits (name : String) (value : PyValue) : RaisesAdmission (requiredField name value) := by
  unfold requiredField
  split
  · exact admits_ite (raises_ok _)
  · exact admits_error _

theorem requiredObject_admits (message : PyText) (value : PyValue) :
    RaisesAdmission (requiredObject message value) := by
  unfold requiredObject
  split
  · exact raises_ok _
  · exact admits_error _

theorem serverSnapshot_admits (protocolVersion serverIdentity : PyText) (capabilities : List (PyText × Json)) :
    RaisesAdmission (McpStableServerSnapshot.make protocolVersion serverIdentity capabilities) := by
  refine (strictJsonDocument_admits _ _).bind ?_
  rintro ⟨frozen, _⟩ -
  cases frozen with
  | obj fields => exact raises_ok _
  | null | bool _ | int _ | float _ | str _ | arr _ => exact admits_error _

theorem validateInitialize_admits (result : List (PyText × Json)) : RaisesAdmission (validateInitialize result) := by
  refine (requiredText_admits _ _).bind fun _ _ => admits_ite ?_
  refine (requiredMapping_admits _ _).bind fun _ _ => ?_
  refine (requiredText_admits _ _).bind fun _ _ => (requiredText_admits _ _).bind fun _ _ => ?_
  refine (requiredMapping_admits _ _).bind fun capabilities _ => ?_
  cases capabilities.lookup (.utf8 "tools") with
  | none => exact admits_error _
  | some tools => exact (requiredMapping_admits _ _).bind fun _ _ => serverSnapshot_admits _ _ _

theorem toolSnapshot_admits (py : Platform) (protocolVersion serverIdentity capabilities toolName schema : PyValue) :
    RaisesAdmission (McpServerToolSnapshot.make py protocolVersion serverIdentity capabilities toolName schema) := by
  refine (requiredField_admits _ _).bind fun _ _ => (requiredField_admits _ _).bind fun _ _ => ?_
  refine (requiredField_admits _ _).bind fun _ _ => (requiredObject_admits _ _).bind fun _ _ => ?_
  refine (requiredObject_admits _ _).bind fun _ _ => (strictJsonDocument_admits _ _).bind fun _ _ => ?_
  exact (strictJsonDocument_admits _ _).bind fun _ _ => raises_ok _

theorem requestedName_admits (toolName : PyValue) : RaisesAdmission (requestedName toolName) := by
  unfold requestedName
  split
  · exact admits_ite (raises_ok _)
  · exact admits_error _

theorem toolHead_admits (index : ℕ) (names : List PyText) (tool : Json) :
    RaisesAdmission (toolHead index names tool) := by
  refine (requiredMapping_admits _ _).bind fun tool _ => (requiredText_admits _ _).bind fun name _ => admits_ite ?_
  refine (requiredMapping_admits _ _).bind fun schema _ => admits_ite ?_
  refine (requiredMapping_admits _ _).bind fun _ _ => ?_
  split
  · exact raises_ok _
  · exact admits_error _

/-- The version of the contract, and the checks on the call. -/
theorem admitCall_admits (adapter : McpStableAdmissionAdapter) (snapshot : McpServerToolSnapshot)
    {operationId attemptId idempotencyKey : String} (hoperation : isBlank operationId = false)
    (hattempt : isBlank attemptId = false) (hkey : isBlank idempotencyKey = false) (arguments : PyValue) :
    RaisesAdmission (adapter.admitCall snapshot operationId attemptId idempotencyKey arguments) := by
  have hversion : RaisesAdmission (adapter.version snapshot.protocolVersion) := by
    unfold McpStableAdmissionAdapter.version
    split
    · exact raises_ok _
    · exact admits_error _
  refine hversion.bind fun version _ => admits_ite (admits_ite ?_)
  refine (requiredObject_admits _ _).bind fun arguments _ => (strictJsonDocument_admits _ _).bind fun detached _ => ?_
  have haction : isBlank "mcp_tool_call" = false := by decide
  obtain ⟨request, hrequest⟩ : ∃ request, ExecutionRequest.make operationId attemptId idempotencyKey "mcp_tool_call"
      [(.str "mcp", .dict snapshot.admissionBinding), (.str "arguments", PyValue.ofJson detached.1)] = .ok request := by
    simp [ExecutionRequest.make, hoperation, hattempt, hkey, haction]
  simp only [makeRequest, hrequest]
  exact raises_ok _

end RaisesAdmission

/-! ## The loop over the tools -/

/-- **The loop comes to a `required` list that has an array or an object**: the tools before it are valid. -/
def ReachesUnhashable : ℕ → List PyText → List Json → Prop
  | _, _, [] => False
  | index, names, tool :: tools => ∃ head, toolHead index names tool = .ok head ∧
      (head.required.any Json.unhashable = true ∨ head.required.any Json.unhashable = false ∧
        requiredValid head.required = true ∧ ReachesUnhashable (index + 1) (head.name :: names) tools)

/-- What `set(required)` raises. -/
def unhashableError : PyException := .typeError "unhashable type"

/-- A `TypeError` is no `McpAdmissionError`. -/
theorem not_admits_unhashable {α : Type} : ¬ RaisesAdmission (.error unhashableError : Except PyException α) :=
  fun h => absurd (h _ rfl) (by simp [unhashableError, PyException.typeError, PyException.ofClass, PyException.isA])

theorem checkRequired_admits_iff (name : PyText) (required : List Json) :
    RaisesAdmission (checkRequired name required) ↔ required.any Json.unhashable = false := by
  by_cases hunhashable : required.any Json.unhashable = true
  · rw [checkRequired, if_pos hunhashable]
    exact iff_of_false not_admits_unhashable (by simp [hunhashable])
  · rw [Bool.not_eq_true] at hunhashable
    refine iff_of_true ?_ hunhashable
    rw [checkRequired, if_neg (by simp [hunhashable])]
    split_ifs
    · exact raises_ok ()
    · exact admits_error _

theorem checkRequired_eq_ok (name : PyText) (required : List Json) (u : Unit) : checkRequired name required = .ok u ↔
    required.any Json.unhashable = false ∧ requiredValid required = true := by
  unfold checkRequired
  cases required.any Json.unhashable <;> cases requiredValid required <;> simp

/-- **The loop raises something else exactly when it comes to such a list.** -/
theorem checkTools_admits_iff (requested : PyText) (index : ℕ) (names : List PyText)
    (selected : Option (List (PyText × Json))) (tools : List Json) :
    RaisesAdmission (checkTools requested index names selected tools) ↔ ¬ ReachesUnhashable index names tools := by
  induction tools generalizing index names selected with
  | nil => exact iff_of_true (raises_ok _) id
  | cons tool tools ih =>
    rw [checkTools, ReachesUnhashable, RaisesAdmission, raises_bind, and_iff_right (toolHead_admits index names tool),
      not_exists]
    refine forall_congr' fun head => ?_
    rw [not_and]
    refine imp_congr_right fun _ => ?_
    rw [raises_bind]
    have hrequired := checkRequired_admits_iff head.name head.required
    have hnext := ih (index + 1) (head.name :: names) (if head.name = requested then some head.schema else selected)
    constructor
    · rintro ⟨hfirst, hrest⟩ (hunhashable | ⟨hhashable, hvalid, hreaches⟩)
      · exact absurd ((hrequired.mp hfirst).symm.trans hunhashable) (by decide)
      · exact hnext.mp (hrest () ((checkRequired_eq_ok _ _ _).mpr ⟨hhashable, hvalid⟩)) hreaches
    · intro hnot
      have hhashable : head.required.any Json.unhashable = false := by
        rw [← Bool.not_eq_true]
        exact fun h => hnot (.inl h)
      refine ⟨hrequired.mpr hhashable, fun u hu => hnext.mpr fun hreaches => hnot (.inr ?_)⟩
      obtain ⟨-, hvalid⟩ := (checkRequired_eq_ok _ _ _).mp hu
      exact ⟨hhashable, hvalid, hreaches⟩

theorem checkTools_raises (requested : PyText) (index : ℕ) (names : List PyText)
    (selected : Option (List (PyText × Json))) (tools : List Json) :
    Raises (fun e => e.isA "McpAdmissionError" = true ∨ e = unhashableError)
      (checkTools requested index names selected tools) := by
  induction tools generalizing index names selected with
  | nil => exact raises_ok _
  | cons tool tools ih =>
    refine ((toolHead_admits index names tool).imp fun _ => .inl).bind fun head _ => ?_
    refine Raises.bind ?_ fun _ _ => ih _ _ _
    unfold checkRequired
    split_ifs
    · exact raises_error.mpr (.inr rfl)
    · exact raises_ok ()
    · exact (admits_error _).imp fun _ => .inl

/-- The loop is reached, and comes to such a list. -/
def ListsUnhashable (toolName : PyValue) (toolsResult : List (PyText × Json)) : Prop :=
  (∃ requested, requestedName toolName = .ok requested) ∧
    ∃ tools, toolsResult.lookup (.utf8 "tools") = some (.arr tools) ∧ ReachesUnhashable 0 [] tools

theorem validateToolsList_admits_iff (py : Platform) (toolsResult : List (PyText × Json))
    (server : McpStableServerSnapshot) (toolName : PyValue) :
    RaisesAdmission (validateToolsList py toolsResult server toolName) ↔ ¬ ListsUnhashable toolName toolsResult := by
  rw [validateToolsList, RaisesAdmission, raises_bind, and_iff_right (requestedName_admits toolName)]
  constructor
  · rintro h ⟨⟨requested, hrequested⟩, tools, htools, hreaches⟩
    have hloop := h requested hrequested
    rw [htools] at hloop
    exact (checkTools_admits_iff requested 0 [] none tools).mp (raises_bind.mp hloop).1 hreaches
  · intro hnot requested hrequested
    split
    · next tools htools =>
      refine Raises.bind ((checkTools_admits_iff requested 0 [] none tools).mpr fun hreaches =>
        hnot ⟨⟨requested, hrequested⟩, tools, htools, hreaches⟩) fun selected _ => ?_
      cases selected with
      | none => exact admits_error _
      | some schema => exact toolSnapshot_admits _ _ _ _ _ _
    · exact admits_error _

theorem validateToolsList_raises (py : Platform) (toolsResult : List (PyText × Json))
    (server : McpStableServerSnapshot) (toolName : PyValue) :
    Raises (fun e => e.isA "McpAdmissionError" = true ∨ e = unhashableError)
      (validateToolsList py toolsResult server toolName) := by
  refine ((requestedName_admits toolName).imp fun _ => .inl).bind fun requested _ => ?_
  split
  · refine (checkTools_raises requested 0 [] none _).bind fun selected _ => ?_
    cases selected with
    | none => exact (admits_error _).imp fun _ => .inl
    | some schema => exact (toolSnapshot_admits _ _ _ _ _ _).imp fun _ => .inl
  · exact (admits_error _).imp fun _ => .inl

/-! ## The orchestrator -/

section Orchestrator

variable {α : Type}

/-- The failure of a preparation. -/
def IsPreDispatch (e : PyException) : Prop := e.isA "McpPreDispatchError" = true

theorem isPreDispatch (phase : String) (reason : PyText) : IsPreDispatch (mcpPreDispatchError phase reason) := rfl

/-- The transport raises transport errors and operating system errors only. -/
structure McpTransport.Bounded (transport : McpTransport) : Prop where
  request : ∀ calls call e, transport.request calls call = .error e →
    e.isA "McpTransportError" = true ∨ e.isA "OSError" = true
  notify : ∀ calls call e, transport.notify calls call = .error e →
    e.isA "McpTransportError" = true ∨ e.isA "OSError" = true

theorem caught {e : PyException} (h : e.isA "McpTransportError" = true ∨ e.isA "OSError" = true) :
    e.isAny transportErrors = true := by
  rw [PyException.isAny, List.any_eq_true]
  rcases h with h | h
  · exact ⟨_, by simp [transportErrors], h⟩
  · exact ⟨_, by simp [transportErrors], h⟩

variable {transport : McpTransport} (hbounded : transport.Bounded) (method : String) (params : PyValue) (phase : String)
  (calls : List McpCall)

include hbounded

/-- A request is answered with an object, or fails before dispatch. -/
theorem sendRequest_run :
    (∃ fields, transport.request calls (.request method params) = .ok (.obj fields) ∧
      (sendRequest transport method params phase).run calls = (.ok fields, calls ++ [.request method params])) ∨
    (∀ fields, transport.request calls (.request method params) ≠ .ok (.obj fields)) ∧ ∃ e, IsPreDispatch e ∧
      (sendRequest transport method params phase).run calls = (.error e, calls ++ [.request method params]) := by
  obtain ⟨next, hrun, hfields, hother⟩ : ∃ next : Json → Recording McpCall (List (PyText × Json)),
      (sendRequest transport method params phase).run calls =
        (answered phase (transport.request calls (.request method params)) >>= next).run
          (calls ++ [.request method params]) ∧
      (∀ fields, next (.obj fields) = pure fields) ∧ ∀ x, (∀ fields, x ≠ .obj fields) →
        next x = throw (mcpPreDispatchError phase "transport returned a non-object result") := by
    refine ⟨_, rfl, fun _ => rfl, fun x hx => ?_⟩
    cases x with
    | obj fields => exact absurd rfl (hx fields)
    | null | bool _ | int _ | float _ | str _ | arr _ => rfl
  rw [hrun]
  cases hx : transport.request calls (.request method params) with
  | error e =>
    refine .inr ⟨fun _ h => (by cases h), mcpPreDispatchError phase e.describe, isPreDispatch _ _, ?_⟩
    rw [answered, if_pos (caught (hbounded.request _ _ _ hx))]
    rfl
  | ok x =>
    by_cases hobj : ∃ fields, x = .obj fields
    · obtain ⟨fields, rfl⟩ := hobj
      exact .inl ⟨fields, rfl, by rw [answered, pure_bind, hfields]; rfl⟩
    · have hne : ∀ fields, x ≠ .obj fields := fun fields h => hobj ⟨fields, h⟩
      refine .inr ⟨fun fields h => hne fields (Except.ok.inj h),
        mcpPreDispatchError phase "transport returned a non-object result", isPreDispatch _ _, ?_⟩
      rw [answered, pure_bind, hother x hne]
      rfl

/-- A notification is sent, or fails before dispatch. -/
theorem sendNotification_run :
    (transport.notify calls (.notify method params) = .ok () ∧
      (sendNotification transport method params phase).run calls = (.ok (), calls ++ [.notify method params])) ∨
    transport.notify calls (.notify method params) ≠ .ok () ∧ ∃ e, IsPreDispatch e ∧
      (sendNotification transport method params phase).run calls = (.error e, calls ++ [.notify method params]) := by
  have hrun : (sendNotification transport method params phase).run calls =
      (answered phase (transport.notify calls (.notify method params))).run (calls ++ [.notify method params]) := rfl
  rw [hrun]
  cases hx : transport.notify calls (.notify method params) with
  | error e =>
    refine .inr ⟨fun h => (nomatch h), mcpPreDispatchError phase e.describe, isPreDispatch _ _, ?_⟩
    rw [answered, if_pos (caught (hbounded.notify _ _ _ hx))]
    rfl
  | ok u => exact .inl ⟨rfl, rfl⟩

omit hbounded in
/-- What a validator admits goes on, and what it rejects fails before dispatch; other exceptions leave `prepare`. -/
theorem admitted_run (x : Except PyException α) :
    (∃ a, x = .ok a ∧ (admitted phase x).run calls = (.ok a, calls)) ∨
    (RaisesAdmission x ∧ (∀ a, x ≠ .ok a) ∧ ∃ e, IsPreDispatch e ∧ (admitted phase x).run calls = (.error e, calls)) ∨
    ∃ e, x = .error e ∧ ¬ RaisesAdmission x ∧ (admitted phase x).run calls = (.error e, calls) := by
  cases x with
  | ok a => exact .inl ⟨a, rfl, rfl⟩
  | error e =>
    by_cases hadmission : e.isA "McpAdmissionError" = true
    · refine .inr (.inl ⟨raises_error.mpr hadmission, fun _ h => (nomatch h), _, isPreDispatch phase e.text, ?_⟩)
      rw [admitted, if_pos hadmission]
      rfl
    · refine .inr (.inr ⟨e, rfl, fun h => hadmission (h e rfl), ?_⟩)
      rw [admitted, if_neg hadmission]
      rfl

end Orchestrator

/-- **Preparation fails only before dispatch**: a prepared call or `McpPreDispatchError`, and no other method is
sent. -/
structure PreparesBeforeDispatch (x : Except PyException McpPreparedCall × List McpCall) : Prop where
  returned : (∃ call, x.1 = .ok call) ∨ ∃ e, x.1 = .error e ∧ IsPreDispatch e
  sent : x.2.map McpCall.method <+: ["initialize", "notifications/initialized", "tools/list"]

section Prepare

variable (orchestrator : McpStableOrchestrator)

/-- The two calls before `tools/list`. -/
def McpStableOrchestrator.firstCall : McpCall := .request "initialize" orchestrator.initializeParams

def initializedCall : McpCall := .notify "notifications/initialized" (.dict [])

/-- The handshake succeeds, and the tools that are listed make the loop come to an array or an object. -/
def McpStableOrchestrator.MeetsUnhashable (toolName : PyValue) : Prop :=
  ∃ initializeResult server toolsResult,
    orchestrator.transport.request [] orchestrator.firstCall = .ok (.obj initializeResult) ∧
    validateInitialize initializeResult = .ok server ∧
    orchestrator.transport.notify [orchestrator.firstCall] initializedCall = .ok () ∧
    orchestrator.transport.request [orchestrator.firstCall, initializedCall] (.request "tools/list" (.dict [])) =
      .ok (.obj toolsResult) ∧
    ListsUnhashable toolName toolsResult

variable {orchestrator}

/-- The second `try` block, after these calls. -/
theorem admission_iff (py : Platform) (toolName : PyValue) (arguments : PyDict)
    {operationId attemptId idempotencyKey : String} (hoperation : isBlank operationId = false)
    (hattempt : isBlank attemptId = false) (hkey : isBlank idempotencyKey = false)
    (toolsResult : List (PyText × Json)) (server : McpStableServerSnapshot) {calls : List McpCall}
    (hsent : calls.map McpCall.method <+: ["initialize", "notifications/initialized", "tools/list"]) :
    PreparesBeforeDispatch ((do
        let request ← admitted "admission"
          (orchestrator.admitTool py toolName arguments operationId attemptId idempotencyKey toolsResult server)
        pure ⟨request, server.serverIdentity, server.protocolVersion, toolName⟩ :
        Recording McpCall McpPreparedCall).run calls) ↔ ¬ ListsUnhashable toolName toolsResult := by
  have hcall := admitCall_admits orchestrator.admission
  have hadmit : RaisesAdmission (orchestrator.admitTool py toolName arguments operationId attemptId idempotencyKey
      toolsResult server) ↔ ¬ ListsUnhashable toolName toolsResult := by
    rw [← validateToolsList_admits_iff py toolsResult server toolName]
    exact raises_bind.trans (and_iff_left fun snapshot _ => hcall snapshot hoperation hattempt hkey _)
  rw [← hadmit, run_bind]
  rcases admitted_run "admission" calls (orchestrator.admitTool py toolName arguments operationId attemptId
    idempotencyKey toolsResult server) with ⟨request, hrequest, hrun⟩ | ⟨hadmits, -, e, he, hrun⟩ |
    ⟨e, herror, hnot, hrun⟩
  · rw [hrun, hrequest]
    exact iff_of_true ⟨.inl ⟨_, rfl⟩, hsent⟩ (raises_ok request)
  · rw [hrun]
    exact iff_of_true ⟨.inr ⟨e, rfl, he⟩, hsent⟩ hadmits
  · rw [hrun]
    refine iff_of_false (fun h => ?_) hnot
    have hraised : e.isA "McpAdmissionError" = true ∨ e = unhashableError :=
      Raises.bind (validateToolsList_raises py toolsResult server toolName) (fun snapshot _ =>
        (hcall snapshot hoperation hattempt hkey _).imp fun _ => .inl) e herror
    rcases h.returned with ⟨call, hcall⟩ | ⟨e', he', hpre⟩
    · exact (nomatch hcall)
    · obtain rfl := Except.error.inj he'
      rcases hraised with hadmission | rfl
      · exact hnot (herror ▸ raises_error.mpr hadmission)
      · exact absurd hpre (by simp [IsPreDispatch, unhashableError, PyException.typeError, PyException.ofClass,
          PyException.isA])

/-- **Preparation fails only before dispatch exactly when the loop over the tools comes to no array and no object.** -/
theorem prepare_iff (hbounded : orchestrator.transport.Bounded) (py : Platform) (toolName : PyValue)
    (arguments : PyDict) {operationId attemptId idempotencyKey : String} (hoperation : isBlank operationId = false)
    (hattempt : isBlank attemptId = false) (hkey : isBlank idempotencyKey = false) :
    PreparesBeforeDispatch
        ((orchestrator.prepare py toolName arguments operationId attemptId idempotencyKey).run []) ↔
      ¬ orchestrator.MeetsUnhashable toolName := by
  rw [McpStableOrchestrator.prepare, run_bind]
  rcases sendRequest_run hbounded "initialize" orchestrator.initializeParams "initialize" [] with
    ⟨initializeResult, hinit, hrun⟩ | ⟨hnone, e, he, hrun⟩
  swap
  · rw [hrun]
    exact iff_of_true ⟨.inr ⟨e, rfl, he⟩, ⟨_, rfl⟩⟩ fun ⟨_, _, _, h, _⟩ => hnone _ h
  have hinit_eq : ∀ {fields}, orchestrator.transport.request [] orchestrator.firstCall = .ok (.obj fields) →
      fields = initializeResult := fun h => (Json.obj.inj (Except.ok.inj (hinit.symm.trans h))).symm
  rw [hrun]
  dsimp only [List.nil_append]
  rw [run_bind]
  rcases admitted_run "initialize_validation" [orchestrator.firstCall] (validateInitialize initializeResult) with
    ⟨server, hserver, hrun⟩ | ⟨-, hnone, e, he, hrun⟩ | ⟨e, -, hnot, -⟩
  rotate_left
  · refine iff_of_true ?_ ?_
    · rw [show [(.request "initialize" orchestrator.initializeParams : McpCall)] = [orchestrator.firstCall] from rfl,
        hrun]
      exact ⟨.inr ⟨e, rfl, he⟩, ⟨_, rfl⟩⟩
    · rintro ⟨initializeResult', server, _, h, hserver, -⟩
      exact hnone server (hinit_eq h ▸ hserver)
  · exact absurd (validateInitialize_admits initializeResult) hnot
  rw [show [(.request "initialize" orchestrator.initializeParams : McpCall)] = [orchestrator.firstCall] from rfl, hrun]
  dsimp only
  rw [run_bind]
  rcases sendNotification_run hbounded "notifications/initialized" (.dict []) "initialized_notification"
    [orchestrator.firstCall] with ⟨hnotify, hrun⟩ | ⟨hnone, e, he, hrun⟩
  swap
  · rw [hrun]
    exact iff_of_true ⟨.inr ⟨e, rfl, he⟩, ⟨_, rfl⟩⟩ fun ⟨_, _, _, _, _, h, _⟩ => hnone h
  rw [hrun]
  dsimp only
  rw [run_bind]
  rcases sendRequest_run hbounded "tools/list" (.dict []) "tools_list"
    ([orchestrator.firstCall] ++ [.notify "notifications/initialized" (.dict [])]) with
    ⟨toolsResult, htools, hrun⟩ | ⟨hnone, e, he, hrun⟩
  swap
  · rw [hrun]
    exact iff_of_true ⟨.inr ⟨e, rfl, he⟩, ⟨_, rfl⟩⟩ fun ⟨_, _, _, _, _, _, h, _⟩ => hnone _ h
  rw [hrun]
  -- The handshake has succeeded: what is left is the second `try` block.
  have hmeets : orchestrator.MeetsUnhashable toolName ↔ ListsUnhashable toolName toolsResult := by
    constructor
    · rintro ⟨_, _, toolsResult', -, -, -, h, hlists⟩
      obtain rfl := Json.obj.inj (Except.ok.inj (htools.symm.trans h))
      exact hlists
    · exact fun hlists => ⟨initializeResult, server, toolsResult, hinit, hserver, hnotify, htools, hlists⟩
  rw [hmeets]
  exact admission_iff py toolName arguments hoperation hattempt hkey toolsResult server ⟨[], rfl⟩

end Prepare

/-! ## Two servers -/

/-- The result of `initialize` of a server with tools. -/
def initializeSample : List (PyText × Json) :=
  [("protocolVersion", .text stableProtocolVersion), ("serverInfo", .obj [("name", .text "s"), ("version", .text "1")]),
    ("capabilities", .obj [("tools", .obj [])])]

/-- The result of `tools/list` with one tool, which requires these items. -/
def toolsSample (required : List Json) : List (PyText × Json) :=
  [("tools", .arr [.obj [("name", .text "t"),
    ("inputSchema", .obj [("type", .text "object"), ("required", .arr required)])]])]

/-- A transport to such a server. -/
def McpTransport.sample (required : List Json) : McpTransport where
  request _ call := .ok (.obj (if call.method = "initialize" then initializeSample else toolsSample required))
  notify _ _ := .ok ()

theorem sample_bounded (required : List Json) : (McpTransport.sample required).Bounded :=
  ⟨fun _ _ _ h => (nomatch h), fun _ _ _ h => (nomatch h)⟩

def McpStableOrchestrator.sample (required : List Json) : McpStableOrchestrator where
  transport := .sample required
  admission := .shipped false
  clientName := "responsibility-pathway-runtime"
  clientVersion := "0.1.0a2"

theorem id_named : isBlank "id" = false := by decide

theorem tools_of_sample {required : List Json} {toolsResult : List (PyText × Json)}
    (h : (McpTransport.sample required).request [(McpStableOrchestrator.sample required).firstCall, initializedCall]
      (.request "tools/list" (.dict [])) = .ok (.obj toolsResult)) : toolsResult = toolsSample required :=
  (Json.obj.inj (Except.ok.inj h)).symm

/-- A server that requires a property. -/
theorem sample_prepares : PreparesBeforeDispatch
    (((McpStableOrchestrator.sample [.text "id"]).prepare .sample (.text "t") [] "id" "id" "id").run []) := by
  refine (prepare_iff (sample_bounded _) .sample (.text "t") [] id_named id_named id_named).mpr ?_
  rintro ⟨_, _, toolsResult, -, -, -, htools, -, tools, hlist, hreaches⟩
  obtain rfl := tools_of_sample htools
  obtain rfl := Json.arr.inj (Option.some.inj hlist)
  obtain ⟨head, hhead, hunhashable | ⟨-, -, hrest⟩⟩ := hreaches
  · obtain rfl := Except.ok.inj hhead
    exact absurd hunhashable (by decide)
  · exact hrest

/-- **A server whose schema requires a list** makes `prepare` raise a `TypeError`. -/
theorem nestedRequired_raises : ¬ ∀ (orchestrator : McpStableOrchestrator), orchestrator.transport.Bounded →
    PreparesBeforeDispatch ((orchestrator.prepare .sample (.text "t") [] "id" "id" "id").run []) := fun h => by
  have hrun : (((McpStableOrchestrator.sample [.arr [.text "id"]]).prepare .sample (.text "t") [] "id" "id" "id").run
      []).1 = .error unhashableError := by rfl
  rcases (h (.sample [.arr [.text "id"]]) (sample_bounded _)).returned with ⟨call, hcall⟩ | ⟨e, he, hpre⟩
  · exact (nomatch hrun.symm.trans hcall)
  · obtain rfl := Except.error.inj (hrun.symm.trans he)
    exact absurd hpre (by simp [IsPreDispatch, unhashableError, PyException.typeError, PyException.ofClass,
      PyException.isA])

end Rpr
