import PathwayRuntime.Log.Registered
import PathwayRuntime.Model.Rpe
import PathwayRuntime.Python.Recorded

/-!
# Which evaluator answers are handled

* `Noted`: what is noted of an answer, by the shape of the answer; `read_iff_noted`.
* `AnsweredAs`: a request for an evaluation whose answer decodes as JSON.
* `Consulted`: a registration that consults the evaluator and that nothing but its answer can make fail.
* **`answer_handled_iff`**: an answer makes `evaluate` return or raise `RpeContractError`, and `register` return,
  exactly when something is noted of it, and the event of a new registration can record that; it allows only if it
  says so.
* `listed_decision_raises`: a list for a decision makes `register` fail.
-/

set_option autoImplicit false

namespace Rpr

open Resume

/-! ## Answers that are read -/

/-- What `evaluate` handles: contract errors, and what it answers with a hold. -/
def RpeHandled (e : PyException) : Prop := e.isA "RpeContractError" = true ∨ e.isAny unavailableErrors = true

/-- Writing a decoded value raises nothing that `evaluate` handles: `RecursionError` is all there is. -/
structure RpeLibrary.Escapes (lib : RpeLibrary) : Prop where
  str : ∀ value e, lib.str value = .error e → ¬ RpeHandled e
  repr : ∀ value e, lib.repr value = .error e → ¬ RpeHandled e

/-- The reasons noted of an answer that breaks the contract. -/
def contractCodes : List PyText := ["rpe_contract_error", "RpeContractError"]

/-- The evidence noted of it. -/
def contractRaw (message : PyText) : PyDict := [(.str "error", .str message)]

section Noted

variable (lib : RpeLibrary) (expected : Option PyText)

/-- **What is noted of an answer**: a decision, its reasons and the raw evidence. -/
inductive Noted : Json → RuntimeDecision → List PyText → PyDict → Prop
  /-- The answer is no object. -/
  | foreign {body : Json} (hbody : ∀ fields, body ≠ .obj fields) :
      Noted body .hold contractCodes (contractRaw "RPE result must be a mapping")
  /-- The decision found is none that is supported, and can be written. -/
  | unsupported {fields : List (PyText × Json)} {text : PyText} (hfound : supported (decisionFound fields) = .ok none)
      (htext : lib.repr (decisionFound fields) = .ok text) :
      Noted (.obj fields) .hold contractCodes (contractRaw (.utf8 "unsupported RPE decision: " ++ text))
  /-- The version found is another than expected, and can be written. -/
  | mismatched {fields : List (PyText × Json)} {decision : RuntimeDecision} {text : PyText}
      (hfound : supported (decisionFound fields) = .ok (some decision))
      (hversion : mismatched expected (versionFound fields) = true)
      (htext : lib.str (versionFound fields) = .ok text) :
      Noted (.obj fields) .hold contractCodes (contractRaw (.utf8 "RPE contract version mismatch: expected " ++
        expected.getD "" ++ .utf8 ", got " ++ text))
  /-- The reasons found can be iterated, and they and the version can be written. -/
  | decided {fields : List (PyText × Json)} {decision : RuntimeDecision} {reasons : List Json}
      {codes : List PyText} {version : Option PyText}
      (hfound : supported (decisionFound fields) = .ok (some decision))
      (hversion : mismatched expected (versionFound fields) = false)
      (hreasons : iterated (reasonsFound fields) = .ok reasons) (hcodes : reasons.mapM lib.str = .ok codes)
      (htext : versionText lib (versionFound fields) = .ok version) :
      Noted (.obj fields) decision codes (PyValue.ofJsonFields fields)

/-- What `evaluate` makes of the end of its `try` block. -/
def handleAnswer : Except PyException RpeResult → Except PyException RpeResult
  | .ok result => .ok result
  | .error e =>
    if e.isA "RpeContractError" then .error e
    else if e.isAny unavailableErrors then .ok ⟨.hold, ["rpe_rest_unavailable", .utf8 e.name], none, none⟩
    else .error e

/-- `register` goes on from the end of the `try` block with this decision, these reasons and this evidence. -/
def ReadsTo (x : Except PyException RpeResult) (decision : RuntimeDecision) (codes : List PyText) (raw : PyDict) :
    Prop :=
  (RpeOutcome.ofEvaluate (handleAnswer x)).read = .ok (decision, codes, raw)

variable {lib expected} {decision : RuntimeDecision} {codes : List PyText} {raw : PyDict}

theorem readsTo_ok {result : RpeResult} : ReadsTo (.ok result) decision codes raw ↔
    result.decision = decision ∧ result.reasonCodes = codes ∧ result.raw.getD [] = raw := by
  simp [ReadsTo, handleAnswer, RpeOutcome.ofEvaluate, RpeOutcome.read]

theorem readsTo_contractError {message : PyText} : ReadsTo (.error (rpeContractError message)) decision codes raw ↔
    RuntimeDecision.hold = decision ∧ contractCodes = codes ∧ contractRaw message = raw := by
  have hread : (RpeOutcome.ofEvaluate (handleAnswer (.error (rpeContractError message)))).read =
      .ok (.hold, contractCodes, contractRaw message) := rfl
  rw [ReadsTo, hread, Except.ok.injEq, Prod.mk.injEq, Prod.mk.injEq]

/-- What is not handled is not read. -/
theorem not_readsTo_error {e : PyException} (h : ¬ RpeHandled e) : ¬ ReadsTo (.error e) decision codes raw := by
  obtain ⟨hcontract, hunavailable⟩ := not_or.mp h
  simp [ReadsTo, handleAnswer, RpeOutcome.ofEvaluate, RpeOutcome.read, hcontract, hunavailable]

theorem not_handled_typeError (message : PyText) : ¬ RpeHandled (.typeError message) := by
  simp [RpeHandled, PyException.typeError, PyException.ofClass, PyException.isA, PyException.isAny, unavailableErrors]

/-- A sequence whose first part is not handled is not read. -/
theorem readsTo_bind {α : Type} {x : Except PyException α} {f : α → Except PyException RpeResult}
    (hx : ∀ e, x = .error e → ¬ RpeHandled e) :
    ReadsTo (x >>= f) decision codes raw ↔ ∃ a, x = .ok a ∧ ReadsTo (f a) decision codes raw := by
  cases x with
  | ok a => exact ⟨fun h => ⟨a, rfl, h⟩, fun ⟨_, ha, h⟩ => Except.ok.inj ha ▸ h⟩
  | error e => exact iff_of_false (not_readsTo_error (hx e rfl)) fun ⟨_, ha, _⟩ => (nomatch ha)

theorem supported_error {value : Json} {e : PyException} (h : supported value = .error e) : ¬ RpeHandled e := by
  cases value with
  | arr _ | obj _ => exact Except.error.inj h ▸ not_handled_typeError _
  | null | bool _ | int _ | float _ | str _ => exact (nomatch h)

theorem iterated_error {value : Json} {e : PyException} (h : iterated value = .error e) : ¬ RpeHandled e := by
  cases value with
  | null | bool _ | int _ | float _ => exact Except.error.inj h ▸ not_handled_typeError _
  | str _ | arr _ | obj _ => exact (nomatch h)

theorem mapM_error (hlib : lib.Escapes) {values : List Json} {e : PyException}
    (h : values.mapM lib.str = .error e) : ¬ RpeHandled e := by
  induction values with
  | nil => exact (nomatch h)
  | cons value values ih =>
    rw [List.mapM_cons] at h
    cases hstr : lib.str value with
    | error e' =>
      rw [hstr] at h
      exact Except.error.inj h ▸ hlib.str value e' hstr
    | ok text =>
      cases hrest : values.mapM lib.str with
      | error e' =>
        rw [hstr, hrest] at h
        exact ih (hrest.trans h)
      | ok texts =>
        rw [hstr, hrest] at h
        exact (nomatch h)

theorem versionText_error (hlib : lib.Escapes) {value : Json} {e : PyException}
    (h : versionText lib value = .error e) : ¬ RpeHandled e := by
  have hstr : ∀ value,
      (lib.str value >>= fun text => .ok (some text)) = (.error e : Except PyException (Option PyText)) →
        ¬ RpeHandled e := fun value h => by
    cases hstr : lib.str value with
    | error e' =>
      rw [hstr] at h
      exact Except.error.inj h ▸ hlib.str value e' hstr
    | ok text =>
      rw [hstr] at h
      exact (nomatch h)
  cases value with
  | null => exact (nomatch h)
  | bool _ | int _ | float _ | str _ | arr _ | obj _ => exact hstr _ h

/-- **What is read of an answer is what is noted of it.** -/
theorem read_iff_noted (hlib : lib.Escapes) (body : Json) :
    ReadsTo (normalizeResult lib expected body) decision codes raw ↔ Noted lib expected body decision codes raw := by
  cases body with
  | null | bool _ | int _ | float _ | str _ | arr _ =>
    refine readsTo_contractError.trans ⟨?_, ?_⟩
    · rintro ⟨rfl, rfl, rfl⟩
      exact .foreign fun _ h => (nomatch h)
    · rintro ⟨_⟩
      exact ⟨rfl, rfl, rfl⟩
  | obj fields =>
    rw [normalizeResult, readsTo_bind fun e => supported_error]
    constructor
    · rintro ⟨_ | found, hfound, h⟩
      · obtain ⟨text, htext, h⟩ := (readsTo_bind (hlib.repr _)).mp h
        obtain ⟨rfl, rfl, rfl⟩ := readsTo_contractError.mp h
        exact .unsupported hfound htext
      · dsimp only at h
        split_ifs at h with hversion
        · obtain ⟨text, htext, h⟩ := (readsTo_bind (hlib.str _)).mp h
          obtain ⟨rfl, rfl, rfl⟩ := readsTo_contractError.mp h
          exact .mismatched hfound hversion htext
        · obtain ⟨reasons, hreasons, h⟩ := (readsTo_bind fun _ => iterated_error).mp h
          obtain ⟨codes, hcodes, h⟩ := (readsTo_bind fun _ => mapM_error hlib).mp h
          obtain ⟨version, htext, h⟩ := (readsTo_bind fun _ => versionText_error hlib).mp h
          obtain ⟨rfl, rfl, rfl⟩ := readsTo_ok.mp h
          exact .decided hfound (Bool.not_eq_true _ ▸ hversion) hreasons hcodes htext
    · intro h
      cases h with
      | foreign hbody => exact absurd rfl (hbody fields)
      | unsupported hfound htext =>
        refine ⟨none, hfound, (readsTo_bind (hlib.repr _)).mpr ⟨_, htext, ?_⟩⟩
        exact readsTo_contractError.mpr ⟨rfl, rfl, rfl⟩
      | mismatched hfound hversion htext =>
        refine ⟨some _, hfound, ?_⟩
        dsimp only
        rw [if_pos hversion, readsTo_bind (hlib.str _)]
        exact ⟨_, htext, readsTo_contractError.mpr ⟨rfl, rfl, rfl⟩⟩
      | decided hfound hversion hreasons hcodes htext =>
        refine ⟨some _, hfound, ?_⟩
        dsimp only
        rw [hversion, if_neg Bool.false_ne_true, hreasons]
        refine (readsTo_bind fun _ => mapM_error hlib).mpr ⟨_, hcodes, ?_⟩
        exact (readsTo_bind fun _ => versionText_error hlib).mpr ⟨_, htext, readsTo_ok.mpr ⟨rfl, rfl, rfl⟩⟩

/-- One thing at most is noted of an answer. -/
theorem Noted.unique (hlib : lib.Escapes) {body : Json} {decision' : RuntimeDecision} {codes' : List PyText}
    {raw' : PyDict} (h : Noted lib expected body decision codes raw)
    (h' : Noted lib expected body decision' codes' raw') : decision = decision' ∧ codes = codes' ∧ raw = raw' := by
  have hread : (.ok (decision, codes, raw) : Except PyError _) = .ok (decision', codes', raw') :=
    ((read_iff_noted hlib body).mpr h).symm.trans ((read_iff_noted hlib body).mpr h')
  obtain ⟨hdecision, hrest⟩ := Prod.mk.inj (Except.ok.inj hread)
  exact ⟨hdecision, Prod.mk.inj hrest⟩

theorem supported_eq_some {value : Json} {decision : RuntimeDecision} (h : supported value = .ok (some decision)) :
    value = .text decision.value := by
  cases value with
  | str s =>
    have hfound := List.find?_some (Except.ok.inj h)
    rw [decide_eq_true_eq] at hfound
    exact congrArg Json.str hfound.symm
  | null | bool _ | int _ | float _ => exact absurd (Except.ok.inj h) (by simp)
  | arr _ | obj _ => exact (nomatch h)

/-- Only an answer that allows is noted so. -/
theorem Noted.allows {body : Json} (h : Noted lib expected body .allow codes raw) :
    ∃ fields, body = .obj fields ∧ decisionFound fields = .text "allow" := by
  cases h with
  | decided hfound => exact ⟨_, rfl, supported_eq_some hfound⟩

end Noted

/-! ## Evaluations -/

section Answers

variable {lib : RpeLibrary} {evaluator : RestRpeEvaluator} {actionRequest : PyValue} {body : Json}
  {x : Except PyException RpeResult}

/-- The request for this evaluation is answered with a body that decodes as JSON. -/
def AnsweredAs (lib : RpeLibrary) (evaluator : RestRpeEvaluator) (actionRequest : PyValue) (body : Json) : Prop :=
  ∃ payload, lib.dumps actionRequest = .ok payload ∧
    lib.checkRequest ⟨evaluator.endpoint, payload, evaluator.headers, "POST"⟩ = .ok () ∧
    ∃ response text, lib.respond ⟨evaluator.endpoint, payload, evaluator.headers, "POST"⟩ = .ok response ∧
      decodeBody response = .ok text ∧ lib.loads text = .ok body

theorem evaluate_answered (h : AnsweredAs lib evaluator actionRequest body) :
    evaluator.evaluate lib actionRequest =
      handleAnswer (normalizeResult lib evaluator.expectedContractVersion body) := by
  obtain ⟨payload, hpayload, hcheck, response, text, hresponse, htext, hbody⟩ := h
  have hexchange : evaluator.exchange lib ⟨evaluator.endpoint, payload, evaluator.headers, "POST"⟩ =
      normalizeResult lib evaluator.expectedContractVersion body := by
    rw [RestRpeEvaluator.exchange, hresponse]
    dsimp only [bind, Except.bind]
    rw [htext]
    dsimp only
    rw [hbody]
  rw [RestRpeEvaluator.evaluate, hpayload]
  dsimp only [bind, Except.bind]
  rw [hcheck]
  dsimp only
  rw [hexchange]
  rfl

/-- A result, or the error of the contract. -/
def ReturnsOrRejects (x : Except PyException RpeResult) : Prop :=
  (∃ result, x = .ok result) ∨ ∃ e, x = .error e ∧ e.isA "RpeContractError" = true

/-- `register` goes on from a result and from the error of the contract. -/
theorem read_ofEvaluate (x : Except PyException RpeResult) :
    (∃ read, (RpeOutcome.ofEvaluate x).read = .ok read) ↔ ReturnsOrRejects x := by
  cases x with
  | ok result => exact iff_of_true ⟨_, rfl⟩ (.inl ⟨result, rfl⟩)
  | error e =>
    by_cases hcontract : e.isA "RpeContractError" = true
    · rw [RpeOutcome.ofEvaluate, if_pos hcontract]
      exact iff_of_true ⟨_, rfl⟩ (.inr ⟨e, rfl, hcontract⟩)
    · rw [RpeOutcome.ofEvaluate, if_neg hcontract]
      refine iff_of_false (fun ⟨_, h⟩ => (nomatch h)) ?_
      rintro (⟨result, h⟩ | ⟨e', h, hcontract'⟩)
      · exact (nomatch h)
      · exact hcontract ((Except.error.inj h).symm ▸ hcontract')

/-- What an answer allows is noted of it. -/
theorem noted_of_allow (hlib : lib.Escapes) (h : AnsweredAs lib evaluator actionRequest body) {result : RpeResult}
    (hresult : evaluator.evaluate lib actionRequest = .ok result) (hallow : result.decision = .allow) :
    Noted lib evaluator.expectedContractVersion body .allow result.reasonCodes (result.raw.getD []) := by
  refine (read_iff_noted hlib body).mp ?_
  rw [ReadsTo, ← evaluate_answered h, hresult, ← hallow]
  rfl

end Answers

/-! ## Registrations -/

section Registered

variable {lib : RpeLibrary} {evaluator : RestRpeEvaluator} {py : Platform} {order : Option RowOrder}
  {calls : List (Call × List Oracle)} {c : Call} {os : List Oracle} {d : PathwayDefinition} {key : String}
  {x : Except PyException RpeResult} {body : Json}

/-- The store can take the registration: the key and the pathway are new, or the key has the row of this definition. -/
def World.takes (py : Platform) (w : World) (d : PathwayDefinition) (key : String) : Prop :=
  isBlank key = false ∧ ∃ canonical, Json.canonical d.toDict = some canonical ∧
    (w.byIdempotencyKey key = none ∧ w.state d.pathwayId = none ∨
      ∃ row, w.byIdempotencyKey key = some (d.pathwayId, row) ∧ row.definitionFingerprint = py.sha256 canonical)

/-- The last call registers this definition, and its evaluator ends so. The store can take it, no constraint is
violated, and the call is not cut short. -/
structure Consulted (py : Platform) (order : Option RowOrder) (calls : List (Call × List Oracle)) (c : Call)
    (os : List Oracle) (d : PathwayDefinition) (key : String) (x : Except PyException RpeResult) : Prop where
  method : c.method = .register d key
  evaluated : ∀ outcome, Step.evaluateRpe d outcome ∈ lastSteps py order calls c os → outcome = .ofEvaluate x
  takes : (sequential py order calls).world.takes py d key
  intact : ∀ s ∈ lastSteps py order calls c os, s.intact = true
  ended : (lastCall py order calls c os).1.ended = true

/-- What is said of the one thing that is read. -/
theorem exists_read_iff {outcome : RpeOutcome} {decision : RuntimeDecision} {codes : List PyText} {raw : PyDict}
    (hread : outcome.read = .ok (decision, codes, raw)) {P : RuntimeDecision → List PyText → PyDict → Prop} :
    (∃ decision codes raw, outcome.read = .ok (decision, codes, raw) ∧ P decision codes raw) ↔
      P decision codes raw := by
  refine ⟨?_, fun h => ⟨_, _, _, hread, h⟩⟩
  rintro ⟨decision', codes', raw', hread', h⟩
  obtain ⟨rfl, rfl, rfl⟩ : decision = decision' ∧ codes = codes' ∧ raw = raw' := by
    simpa using hread.symm.trans hread'
  exact h

/-- `register` returns, given this answer, exactly when it can go on from it, and the event of a new registration can
record what it reads. -/
theorem solo_registration {A : Step → Prop} {w : World} (hc : c.method = .register d key)
    (htakes : w.takes py d key) (hsound : Sound A)
    (hanswer : ∀ outcome, A (.evaluateRpe d outcome) → outcome = .ofEvaluate x) :
    Solo py order A (fun _ _ => True) (fun r _ => (∃ result, r = .ok result) ↔
      ∃ decision codes raw, (RpeOutcome.ofEvaluate x).read = .ok (decision, codes, raw) ∧
        (w.byIdempotencyKey key = none →
          Recordable py c.policy (registrationFields d key decision codes raw))) (c.body py) w := by
  obtain ⟨hgiven, canonical, hcanonical, hstore⟩ := htakes
  rw [register_body hc]
  refine solo_call (fun _ => rfl) fun o ha => ?_
  have ho : o.rpe = .ofEvaluate x := hanswer _ ha
  show Solo py order A _ _ (Prog.ofExcept o.rpe.read >>= _) w
  rw [ho]
  refine solo_ofExcept (fun a hread => ?_) fun e hread => iff_of_false (fun ⟨_, h⟩ => (nomatch h)) ?_
  swap
  · rintro ⟨decision, codes, raw, hread', -⟩
    exact absurd (hread.symm.trans hread') (by simp)
  obtain ⟨decision, codes, raw⟩ := a
  simp only [exists_read_iff hread]
  have hcall : createOrReplayPathway py d (registeredState d decision) key =
      .call (.createOrReplayPathway d (py.sha256 canonical) (registeredState d decision) key) Prog.ofExcept := by
    rw [createOrReplayPathway, if_neg (by rw [hgiven]; decide), hcanonical]
  rw [hcall]
  refine solo_call (fun r => by rcases r with _ | ⟨_ | _, _⟩ <;> rfl) fun o ha => ?_
  rcases hstore with ⟨hunused, habsent⟩ | ⟨row, hrow, hsame⟩
  · have hcreate := World.createOrReplayPathway_absent hunused habsent (py.sha256 canonical)
      (registeredState d decision)
    show Solo py order A _ _ (Prog.ofExcept (w.createOrReplayPathway d _ _ key).1 >>=
      recordRegistration py c.policy d key (decision, codes, raw)) (w.createOrReplayPathway d _ _ key).2
    rw [hcreate]
    refine solo_record (fun event _ => trivial) (fun event hbuilt => ?_) fun hno e => ?_
    · exact solo_pure (iff_of_true ⟨_, rfl⟩ fun _ => hbuilt.recordable)
    · exact iff_of_false (fun ⟨_, h⟩ => (nomatch h)) fun h => hno ⟨h hunused, hsound⟩
  · have hreplay : w.createOrReplayPathway d (py.sha256 canonical) (registeredState d decision) key =
        (.ok (true, row.state), w) := by
      rw [World.createOrReplayPathway, hrow]
      dsimp only
      rw [if_neg (by simp [hsame])]
    show Solo py order A _ _ (Prog.ofExcept (w.createOrReplayPathway d _ _ key).1 >>=
      recordRegistration py c.policy d key (decision, codes, raw)) (w.createOrReplayPathway d _ _ key).2
    rw [hreplay]
    refine solo_pure (iff_of_true ⟨_, rfl⟩ fun hunused => ?_)
    rw [hrow] at hunused
    cases hunused

/-- **The answer is handled**: `evaluate` returns or raises `RpeContractError`, `register` returns, and only a decision
found to be the text `allow` allows. -/
structure AnswerHandled (body : Json) (x : Except PyException RpeResult) (registered : Outcome PyError CallResult) :
    Prop where
  answered : ReturnsOrRejects x
  registered : ∃ result, registered = .returned result
  allowed : ∀ result, x = .ok result → result.decision = .allow →
    ∃ fields, body = .obj fields ∧ decisionFound fields = .text "allow"

/-- **Which answers are handled**: those something is noted of that the event of a new registration can record. -/
theorem answer_handled_iff (hlib : lib.Escapes) (h : AnsweredAs lib evaluator d.actionRequest body)
    (hrun : Consulted py order calls c os d key (evaluator.evaluate lib d.actionRequest)) :
    AnswerHandled body (evaluator.evaluate lib d.actionRequest) (lastCall py order calls c os).1 ↔
      ∃ decision codes raw, Noted lib evaluator.expectedContractVersion body decision codes raw ∧
        ((sequential py order calls).world.byIdempotencyKey key = none →
          Recordable py c.policy (registrationFields d key decision codes raw)) := by
  have hnoted : ∀ decision codes raw, (RpeOutcome.ofEvaluate (evaluator.evaluate lib d.actionRequest)).read =
      .ok (decision, codes, raw) ↔ Noted lib evaluator.expectedContractVersion body decision codes raw :=
    fun decision codes raw => by rw [evaluate_answered h]; exact read_iff_noted hlib body
  obtain ⟨-, hreturns⟩ := solo_lastCall (G := fun _ _ => True) (solo_registration hrun.method hrun.takes
    (A := fun s => s.intact = true ∧ ∀ outcome, s = .evaluateRpe d outcome →
      outcome = .ofEvaluate (evaluator.evaluate lib d.actionRequest)) (fun s hs => hs.1)
    fun outcome hs => hs.2 outcome rfl) fun s hs =>
      ⟨hrun.intact s hs, fun outcome hs' => hrun.evaluated outcome (hs' ▸ hs)⟩
  simp only [hnoted] at hreturns
  constructor
  · rintro ⟨-, ⟨result, hresult⟩, -⟩
    rw [hresult] at hreturns
    exact hreturns.mp ⟨result, rfl⟩
  · intro hgood
    obtain ⟨decision, codes, raw, hbody, -⟩ := id hgood
    refine ⟨(read_ofEvaluate _).mp ⟨_, (hnoted _ _ _).mpr hbody⟩, ?_, fun result hresult hallow =>
      (noted_of_allow hlib h hresult hallow).allows⟩
    have hended := hrun.ended
    cases hout : (lastCall py order calls c os).1 with
    | returned result => exact ⟨result, rfl⟩
    | raised e =>
      rw [hout] at hreturns
      obtain ⟨result, hresult⟩ := hreturns.mpr hgood
      cases hresult
    | crashed =>
      rw [hout] at hended
      cases hended

end Registered

/-! ## Two answers -/

/-- An evaluator that is answered with this value. -/
def RpeLibrary.answering (body : Json) : RpeLibrary where
  dumps _ := .ok []
  checkRequest _ := .ok ()
  respond _ := .ok []
  loads _ := .ok body
  str
    | .str s => .ok s
    | _ => .ok ""
  repr _ := .ok ""

def RestRpeEvaluator.sample : RestRpeEvaluator := .make "http://localhost/evaluate" none []

theorem answering_answered (body : Json) (actionRequest : PyValue) :
    AnsweredAs (.answering body) .sample actionRequest body :=
  ⟨[], rfl, rfl, [], [], rfl, rfl, rfl⟩

theorem answering_escapes (body : Json) : (RpeLibrary.answering body).Escapes where
  str value e h := by cases value <;> cases h
  repr _ _ h := (nomatch h)

/-- A registration on a new database, whose evaluator is answered with this value. -/
def answeredRegistration (body : Json) : Call × List Oracle :=
  (Method.register (.sample none) "reg").answered
    { rpe := .ofEvaluate
        (RestRpeEvaluator.sample.evaluate (.answering body) (PathwayDefinition.sample none).actionRequest) }

theorem answeredRegistration_consulted {body : Json}
    (hrun : (∀ s ∈ lastSteps .sample none [] (answeredRegistration body).1 (answeredRegistration body).2,
      s.intact = true) ∧
      (lastCall .sample none [] (answeredRegistration body).1 (answeredRegistration body).2).1.ended = true) :
    Consulted .sample none [] (answeredRegistration body).1 (answeredRegistration body).2 (.sample none) "reg"
      (RestRpeEvaluator.sample.evaluate (.answering body) (PathwayDefinition.sample none).actionRequest) where
  method := rfl
  evaluated _ h := lastSteps_rpe (by simp [answeredRegistration, Method.answered]) h
  takes := by
    obtain ⟨canonical, hcanonical⟩ : ∃ canonical, Json.canonical (PathwayDefinition.sample none).toDict =
        some canonical := Option.isSome_iff_exists.mp (by decide +kernel)
    exact ⟨by decide, canonical, hcanonical, .inl ⟨rfl, rfl⟩⟩
  intact := hrun.1
  ended := hrun.2

/-- An answer that allows, for a reason. -/
def allowAnswer : List (PyText × Json) := [("decision", .text "allow"), ("reasons", .text "known")]

theorem allowAnswer_noted : Noted (.answering (.obj allowAnswer)) none (.obj allowAnswer) .allow ["known"]
    (PyValue.ofJsonFields allowAnswer) := by
  have hreasons : iterated (reasonsFound allowAnswer) = .ok [.text "known"] := rfl
  have hversion : versionText (.answering (.obj allowAnswer)) (versionFound allowAnswer) = .ok none := rfl
  exact .decided rfl rfl hreasons rfl hversion

theorem allowAnswer_handled : AnswerHandled (.obj allowAnswer)
    (RestRpeEvaluator.sample.evaluate (.answering (.obj allowAnswer)) (PathwayDefinition.sample none).actionRequest)
    (lastCall .sample none [] (answeredRegistration (.obj allowAnswer)).1
      (answeredRegistration (.obj allowAnswer)).2).1 := by
  refine (answer_handled_iff (answering_escapes _) (answering_answered (.obj allowAnswer) _)
    (answeredRegistration_consulted (by decide +kernel))).mpr ⟨_, _, _, allowAnswer_noted, fun _ => ?_⟩
  have hrecorded : (RedactionPolicy.default.redact .sample (.ofFields (registrationFields (.sample none) "reg" .allow
      ["known"] (PyValue.ofJsonFields allowAnswer)))).toOption.any fun safe => (Json.canonical safe).isSome := by
    decide +kernel
  obtain ⟨safe, hsafe, hcanonical⟩ := (Option.any_eq_true _ _).mp hrecorded
  cases hredact : RedactionPolicy.default.redact .sample (.ofFields (registrationFields (.sample none) "reg" .allow
      ["known"] (PyValue.ofJsonFields allowAnswer))) with
  | ok safe' =>
    rw [hredact] at hsafe
    obtain rfl := Option.some.inj hsafe
    exact ⟨_, hredact, hcanonical⟩
  | error e =>
    rw [hredact] at hsafe
    cases hsafe

/-- A list for a decision. -/
def listedDecision : Json := .obj [("decision", .arr [.text "allow"])]

/-- **A list for a decision makes `register` fail**: it raises a `TypeError`. -/
theorem listed_decision_raises : ¬ ∀ (lib : RpeLibrary) (evaluator : RestRpeEvaluator) (body : Json) (py : Platform)
    (order : Option RowOrder) (calls : List (Call × List Oracle)) (c : Call) (os : List Oracle) (d : PathwayDefinition)
    (key : String), lib.Escapes → AnsweredAs lib evaluator d.actionRequest body →
    Consulted py order calls c os d key (evaluator.evaluate lib d.actionRequest) →
    AnswerHandled body (evaluator.evaluate lib d.actionRequest) (lastCall py order calls c os).1 := fun h => by
  obtain ⟨result, hresult⟩ := (h (.answering listedDecision) .sample listedDecision .sample none [] _ _ _ _
    (answering_escapes _) (answering_answered listedDecision _)
    (answeredRegistration_consulted (by decide +kernel))).registered
  have hraises : (lastCall .sample none [] (answeredRegistration listedDecision).1
      (answeredRegistration listedDecision).2).1.raises = true := by decide +kernel
  rw [hresult] at hraises
  cases hraises

end Rpr
