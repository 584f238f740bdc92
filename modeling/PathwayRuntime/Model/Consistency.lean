import Mathlib.Data.Fintype.Basic
import Mathlib.Data.Fintype.List
import Mathlib.Data.Multiset.Sort
import Mathlib.Data.String.Basic
import PathwayRuntime.Model.Rpe
import PathwayRuntime.Python.Loaded
import PathwayRuntime.Python.Repr

/-!
# The consistency checks of the transition table

* `readText`, `splitlines`: the lines of a file.
* `statePattern`, `edgePattern`: what a line names.
* `parseLean`: the states and the edges a formal state file names.
* `checkFormalConsistency`: the runtime table against the state file.
* `verifyCanonicalSpec`: a JSON spec against the runtime table and the state file.
-/

set_option autoImplicit false

namespace Rpr

open PathwayState in
/-- The members of the enumeration. -/
def PathwayState.members : List PathwayState :=
  [proposed, awaitingApproval, approved, running, held, humanGate, stopped, partiallyCompleted,
    writeStatusUnknown, repairRequired, readyToResume, completed, denied, aborted]

theorem PathwayState.mem_members (s : PathwayState) : s ∈ PathwayState.members := by
  cases s <;> decide

instance : Fintype PathwayState := Fintype.ofList PathwayState.members PathwayState.mem_members

/-- A transition, from its source to its target. -/
abbrev Edge : Type := PathwayState × PathwayState

/-! ## The lines of a file -/

/-- Universal newlines. -/
def universalNewlines : List Char → List Char
  | [] => []
  | '\r' :: '\n' :: text => '\n' :: universalNewlines text
  | c :: text => (if c = '\r' then '\n' else c) :: universalNewlines text

/-- `path.read_text(encoding="utf-8")`. -/
def readText (data : Bytes) : Except PyException (List Char) := do
  .ok (universalNewlines (← decodeBody data))

/-- Where `str.splitlines` ends a line. -/
def isLineBreak (c : Char) : Bool :=
  c.toNat ∈ [0x0A, 0x0B, 0x0C, 0x0D, 0x1C, 0x1D, 0x1E, 0x85, 0x2028, 0x2029]

/-- `text.splitlines()`. -/
def splitlines : List Char → List (List Char)
  | [] => []
  | '\r' :: '\n' :: text => [] :: splitlines text
  | c :: text =>
    if isLineBreak c then [] :: splitlines text
    else match splitlines text with
      | [] => [[c]]
      | line :: lines => (c :: line) :: lines

/-! ## The patterns -/

/-- `[A-Za-z]`. -/
def isLetter (c : Char) : Bool := 'a' ≤ c && c ≤ 'z' || 'A' ≤ c && c ≤ 'Z'

/-- `[A-Za-z0-9]`. -/
def isAlnum (c : Char) : Bool := isLetter c || '0' ≤ c && c ≤ '9'

/-- `\s*`. -/
def skipWhite (text : List Char) : List Char := text.dropWhile isSpace

/-- `^\s*\|\s+`. -/
def scanBar (line : List Char) : Option (List Char) :=
  match skipWhite line with
  | '|' :: c :: rest => if isSpace c then some (skipWhite rest) else none
  | _ => none

/-- `[A-Za-z][A-Za-z0-9]*`, and what is behind it. -/
def scanIdentifier : List Char → Option (String × List Char)
  | [] => none
  | c :: text =>
    if isLetter c then some (String.ofList (c :: text.takeWhile isAlnum), text.dropWhile isAlnum) else none

/-- The text behind a given one. -/
def scanLiteral (expected : String) (text : List Char) : Option (List Char) :=
  if expected.toList <+: text then some (text.drop expected.toList.length) else none

/-- `_STATE_PATTERN`. -/
def statePattern (line : List Char) : Option String := do
  let text ← scanBar line
  let (name, text) ← scanIdentifier text
  if text.all isSpace then some name else none

/-- `_EDGE_PATTERN`. -/
def edgePattern (line : List Char) : Option (String × String) := do
  let text ← scanBar line
  let (source, text) ← scanIdentifier text
  let text ← scanLiteral "," text
  let (target, text) ← scanIdentifier (skipWhite text)
  let text ← scanLiteral "=>" (skipWhite text)
  let text ← scanLiteral "true" (skipWhite text)
  if text.all isSpace then some (source, target) else none

/-! ## The formal state file -/

open PathwayState in
/-- `_LEAN_TO_PYTHON`. -/
def leanToPython : List (String × PathwayState) :=
  [("proposed", proposed),
    ("awaitingApproval", awaitingApproval),
    ("approved", approved),
    ("running", running),
    ("held", held),
    ("humanGate", humanGate),
    ("stopped", stopped),
    ("partiallyCompleted", partiallyCompleted),
    ("writeStatusUnknown", writeStatusUnknown),
    ("repairRequired", repairRequired),
    ("readyToResume", readyToResume),
    ("completed", completed),
    ("denied", denied),
    ("aborted", aborted)]

/-- The line starts the declaration of the states. -/
def startsStates (line : List Char) : Bool := "inductive PathwayState where".toList <+: line

/-- The line ends the declaration of the states. -/
def endsStates (line : List Char) : Bool := "deriving".toList <:+: line

/-- A line of the declaration. -/
def readState (states : Finset PathwayState) (line : List Char) : Except PyException (Finset PathwayState) :=
  match statePattern line with
  | none => .ok states
  | some name =>
    match leanToPython.lookup name with
    | none => .error (.valueError (PyText.utf8 ("unknown Lean pathway state: " ++ name)))
    | some state => .ok (insert state states)

/-- A line that may name an edge; the source is looked up first. -/
def readEdge (edges : Finset Edge) (line : List Char) : Except PyException (Finset Edge) :=
  match edgePattern line with
  | none => .ok edges
  | some (sourceName, targetName) =>
    match leanToPython.lookup sourceName, leanToPython.lookup targetName with
    | some source, some target => .ok (insert (source, target) edges)
    | none, _ => .error (.valueError (PyText.utf8 ("unknown Lean pathway state in transition: " ++ sourceName)))
    | _, none => .error (.valueError (PyText.utf8 ("unknown Lean pathway state in transition: " ++ targetName)))

/-- The loop over the lines. -/
def parseLines (inStateDeclaration : Bool) (states : Finset PathwayState) (edges : Finset Edge) :
    List (List Char) → Except PyException (Finset PathwayState × Finset Edge)
  | [] => .ok (states, edges)
  | line :: lines =>
    if startsStates line then parseLines true states edges lines
    else if inStateDeclaration && endsStates line then parseLines false states edges lines
    else do
      let states ← if inStateDeclaration then readState states line else .ok states
      let edges ← readEdge edges line
      parseLines inStateDeclaration states edges lines

/-- `_parse_lean`. -/
def parseLean (data : Bytes) : Except PyException (Finset PathwayState × Finset Edge) := do
  let text ← readText data
  parseLines false ∅ ∅ (splitlines text)

/-! ## The runtime table against the state file -/

/-- `_edge_name`. -/
def edgeName (edge : Edge) : String := edge.1.value ++ "->" ++ edge.2.value

/-- `tuple(sorted(...))` over a set. -/
def sortedNames {α : Type} (name : α → String) (items : Finset α) : List String :=
  (items.val.map name).sort (· ≤ ·)

/-- `{(source, target) for source, targets in _ALLOWED.items() for target in targets}`. -/
def runtimeEdges : Finset Edge :=
  Finset.univ.biUnion fun source => (allowedTransitions source).toFinset.image fun target => (source, target)

/-- `FormalConsistencyResult`. -/
structure FormalConsistencyResult where
  isMatched : Bool
  pythonOnly : List String
  leanOnly : List String
  pythonStatesOnly : List String
  leanStatesOnly : List String
  leanSha256 : String

section Check

-- `hashlib.sha256(data).hexdigest()`
variable (sha256 : Bytes → String)

/-- `check_formal_consistency`. -/
def checkFormalConsistency (lean : Bytes) : Except PyException FormalConsistencyResult := do
  let (leanStates, leanEdges) ← parseLean lean
  let pythonOnly := sortedNames edgeName (runtimeEdges \ leanEdges)
  let leanOnly := sortedNames edgeName (leanEdges \ runtimeEdges)
  let pythonStatesOnly := sortedNames PathwayState.value (Finset.univ \ leanStates)
  let leanStatesOnly := sortedNames PathwayState.value (leanStates \ Finset.univ)
  .ok {
    isMatched := pythonOnly.isEmpty && leanOnly.isEmpty && pythonStatesOnly.isEmpty && leanStatesOnly.isEmpty
    pythonOnly := pythonOnly
    leanOnly := leanOnly
    pythonStatesOnly := pythonStatesOnly
    leanStatesOnly := leanStatesOnly
    leanSha256 := sha256 lean }

end Check

/-! ## The JSON spec -/

/-- The state a value is the value of. -/
def Json.state? : Json → Option PathwayState
  | .str s => PathwayState.members.find? fun state => s = .utf8 state.value
  | _ => none

/-- `CanonicalSpecResult`. -/
structure CanonicalSpecResult where
  isMatched : Bool
  specSha256 : String
  runtimeOnly : List String
  specOnly : List String
  leanOnly : List String
  specNotInLean : List String

section Verify

variable (sha256 : Bytes → String) (js : JsonPlatform) (lib : ReprLibrary)

/-- `PathwayState(value)`. -/
def pathwayState (value : Json) : Except PyException PathwayState :=
  match value.state? with
  | some state => .ok state
  | none => do
    let text ← (PyValue.ofJson value).repr lib
    .error (.valueError (PyText.utf8 (String.ofList text ++ " is not a valid PathwayState")))

/-- `set(value)`: arrays and objects have no hash. -/
def asSet (value : Json) : Except PyException (List Json) := do
  let items ← iterated value
  if items.all Json.hashable then .ok items else .error (.typeError "unhashable type")

/-- The items are the values of all states, and nothing else. -/
def namesStates (items : List Json) : Bool :=
  items.all (fun item => item.state?.isSome) && decide ((items.filterMap Json.state?).toFinset = Finset.univ)

/-- `transitions.items()`. -/
def transitionItems : Json → Except PyException (List (PyText × Json))
  | .obj fields => .ok fields
  | _ => .error (.attributeError "object has no attribute 'items'")

/-- The edges of one member of the transitions. -/
def memberEdges (member : PyText × Json) : Except PyException (List Edge) := do
  (← iterated member.2).mapM fun target => do
    .ok (← pathwayState lib (.str member.1), ← pathwayState lib target)

/-- The edges of the decoded spec. -/
def specEdges (raw : Json) : Except PyException (Finset Edge) := do
  let states ← (← iterated (← jsonItem "states" raw)).mapM (pathwayState lib)
  if ¬ states.Nodup ∨ states.toFinset ≠ Finset.univ then
    .error (.valueError "canonical states must exactly match PathwayState")
  else do
    let transitions ← jsonItem "transitions" raw
    if namesStates (← asSet transitions) = false then
      .error (.valueError "canonical transition keys must exactly match states")
    else do
      let edges ← (← transitionItems transitions).mapM (memberEdges lib)
      .ok edges.flatten.toFinset

/-- `verify_canonical_spec`. -/
def verifyCanonicalSpec (spec lean : Bytes) : Except PyException CanonicalSpecResult := do
  let raw ← loads js defaultHooks (← readText spec)
  let specEdges ← specEdges lib raw
  let (_, leanEdges) ← parseLean lean
  let runtimeOnly := sortedNames edgeName (runtimeEdges \ specEdges)
  let specOnly := sortedNames edgeName (specEdges \ runtimeEdges)
  let leanOnly := sortedNames edgeName (leanEdges \ specEdges)
  let specNotInLean := sortedNames edgeName (specEdges \ leanEdges)
  .ok {
    isMatched := runtimeOnly.isEmpty && specOnly.isEmpty && leanOnly.isEmpty && specNotInLean.isEmpty
    specSha256 := sha256 spec
    runtimeOnly := runtimeOnly
    specOnly := specOnly
    leanOnly := leanOnly
    specNotInLean := specNotInLean }

end Verify

end Rpr
