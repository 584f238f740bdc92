import PathwayRuntime.Model.Http
import PathwayRuntime.Model.Runtime
import PathwayRuntime.Python.Update

/-!
# Reading an evaluator's answer over HTTP

* `RpeLibrary`: what `RestRpeEvaluator` calls.
* `normalizeResult`: an answer as an `RpeResult`, by the members it is looked up in.
* `RestRpeEvaluator.evaluate`; `RpeOutcome.ofEvaluate`: what `register` sees of it.
-/

set_option autoImplicit false

namespace Rpr

/-- `RpeResult`. -/
structure RpeResult where
  decision : RuntimeDecision
  reasonCodes : List PyText := []
  raw : Option PyDict := none
  contractVersion : Option PyText := none

/-- What an evaluator calls: `json.dumps` and `.encode`, the checks of `Request`, the request and `response.read()`,
`json.loads`, and `str` and `repr` of a decoded value. -/
structure RpeLibrary where
  dumps : PyValue → Except PyException Bytes
  checkRequest : HttpRequest → Except PyException Unit
  respond : HttpRequest → Except PyException Bytes
  loads : List Char → Except PyException Json
  str : Json → Except PyException PyText
  repr : Json → Except PyException PyText

def rpeContractError (message : PyText) : PyException := .ofClass "RpeContractError" ["RuntimeError"] message

/-! ## The members that are read -/

/-- `value.get(first) or value.get(second)`. -/
def getOr (fields : List (PyText × Json)) (first second : String) : Json :=
  let value := (fields.lookup (.utf8 first)).getD .null
  if value.truthy then value else (fields.lookup (.utf8 second)).getD .null

/-- The decision or outcome found: in the answer, or in an object there. -/
def decisionFound (fields : List (PyText × Json)) : Json :=
  match getOr fields "decision" "outcome" with
  | .obj nested => getOr nested "decision" "outcome"
  | found => found

/-- The version found. -/
def versionFound (fields : List (PyText × Json)) : Json := getOr fields "contract_version" "schema_version"

/-- `… or ()`, one text being one reason. -/
def reasonsFound (fields : List (PyText × Json)) : Json :=
  let reasons := getOr fields "reason_codes" "reasons"
  if reasons.truthy then
    match reasons with
    | .str s => .arr [.str s]
    | reasons => reasons
  else .arr []

/-- `SUPPORTED_DECISION_VALUES`, with their members. -/
def supportedDecisions : List RuntimeDecision := [.allow, .hold, .humanGate, .deny]

/-- The supported decision a value is: arrays and objects have no hash. -/
def supported : Json → Except PyException (Option RuntimeDecision)
  | .arr _ => .error (.typeError "unhashable type: 'list'")
  | .obj _ => .error (.typeError "unhashable type: 'dict'")
  | .str s => .ok (supportedDecisions.find? fun decision => PyText.utf8 decision.value = s)
  | _ => .ok none

/-- What a value is iterated by. -/
def iterated : Json → Except PyException (List Json)
  | .arr items => .ok items
  | .obj fields => .ok (fields.map fun f => .str f.1)
  | .str s => .ok (s.codes.map fun c => .str (.ofCodes [c]))
  | _ => .error (.typeError "object is not iterable")

/-- `expected_contract_version and contract_version != expected_contract_version`. -/
def mismatched : Option PyText → Json → Bool
  | none, _ => false
  | some expected, .str s => expected.length != 0 && s != expected
  | some expected, _ => expected.length != 0

section Evaluate

variable (lib : RpeLibrary)

/-- `None if contract_version is None else str(contract_version)`. -/
def versionText : Json → Except PyException (Option PyText)
  | .null => .ok none
  | version => do .ok (some (← lib.str version))

/-- `_normalize_result`, of a decoded value. -/
def normalizeResult (expected : Option PyText) : Json → Except PyException RpeResult
  | .obj fields => do
    match ← supported (decisionFound fields) with
    | none =>
      let text ← lib.repr (decisionFound fields)
      .error (rpeContractError (.utf8 "unsupported RPE decision: " ++ text))
    | some decision =>
      if mismatched expected (versionFound fields) then do
        let text ← lib.str (versionFound fields)
        .error (rpeContractError (.utf8 "RPE contract version mismatch: expected " ++ expected.getD "" ++
          .utf8 ", got " ++ text))
      else do
        let reasons ← iterated (reasonsFound fields)
        let reasonCodes ← reasons.mapM lib.str
        let contractVersion ← versionText lib (versionFound fields)
        .ok ⟨decision, reasonCodes, some (PyValue.ofJsonFields fields), contractVersion⟩
  | _ => .error (rpeContractError "RPE result must be a mapping")

/-- `RestRpeEvaluator`. -/
structure RestRpeEvaluator where
  endpoint : PyText
  headers : List (PyText × PyText)
  expectedContractVersion : Option PyText

/-- The constructor: the headers supplied go over the JSON ones. -/
def RestRpeEvaluator.make (endpoint : PyText) (expectedContractVersion : Option PyText)
    (headers : List (PyText × PyText)) : RestRpeEvaluator :=
  ⟨endpoint, updateAll [("Content-Type", "application/json"), ("Accept", "application/json")] headers,
    expectedContractVersion⟩

/-- The exceptions `evaluate` answers with a hold. -/
def unavailableErrors : List String := ["URLError", "TimeoutError", "JSONDecodeError", "UnicodeDecodeError"]

/-- The `try` block of `evaluate`. -/
def RestRpeEvaluator.exchange (evaluator : RestRpeEvaluator) (http : HttpRequest) : Except PyException RpeResult := do
  let body ← lib.respond http
  let text ← decodeBody body
  let raw ← lib.loads text
  normalizeResult lib evaluator.expectedContractVersion raw

/-- `RestRpeEvaluator.evaluate`. -/
def RestRpeEvaluator.evaluate (evaluator : RestRpeEvaluator) (actionRequest : PyValue) :
    Except PyException RpeResult := do
  let payload ← lib.dumps actionRequest
  let http : HttpRequest := ⟨evaluator.endpoint, payload, evaluator.headers, "POST"⟩
  lib.checkRequest http
  match evaluator.exchange lib http with
  | .ok result => .ok result
  | .error e =>
    if e.isA "RpeContractError" then .error e
    else if e.isAny unavailableErrors then
      .ok ⟨.hold, ["rpe_rest_unavailable", .utf8 e.name], none, none⟩
    else .error e

end Evaluate

/-- What `register` asks to be evaluated. -/
def PathwayDefinition.actionRequest (d : PathwayDefinition) : PyValue :=
  .ofFields [("action", .text d.actionName), ("action_class", .text d.actionClass.value),
    ("environment_trust", .text d.environmentTrust.value), ("responsibility_pathway", .ofJson d.toDict)]

/-- What `register` sees of an evaluation. -/
def RpeOutcome.ofEvaluate : Except PyException RpeResult → RpeOutcome
  | .ok result => .returned result.decision result.reasonCodes result.raw
  | .error e => if e.isA "RpeContractError" then .contractError e.name e.text else .raised e.name

end Rpr
