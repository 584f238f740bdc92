import PathwayRuntime.Model.Column
import PathwayRuntime.Model.Database
import PathwayRuntime.Model.Server
import PathwayRuntime.Model.System

/-!
# The read model of the server

* `ReadOnlyDatabase`: the rows of a `World`, with the columns it does not have; `ReadOnlyDatabase.ofHistory`: the dates
  that the steps of a history write into them.
* `validatedLimit`, `requiredId`: the checks of the arguments.
* `status`, `listPathways`, `listUnresolved`, `getPathway`, `getRouteVisibility`, `getEvidence`.
* `ReadOnlyDatabase.readModel`: the methods as the server calls them.
-/

set_option autoImplicit false

namespace Rpr

open Resume

/-- What a read-only connection reads: the rows of the pathway store, `schema_version`, and when a pathway was created
and updated. `definition_json` is read as the value it holds. -/
structure ReadOnlyDatabase where
  world : World
  schemaVersion : Option ℤ
  createdAt : String → String
  updatedAt : String → String

/-- The pathway whose row a step inserts. -/
def Step.insertsRow : Step → Option String
  | .createOrReplayPathway d _ _ _ (.ok (false, _)) => some d.pathwayId
  | _ => none

/-- The pathway whose row a step inserts or updates, with `CURRENT_TIMESTAMP` in `updated_at`. -/
def Step.writesRow : Step → Option String
  | .createOrReplayPathway d _ _ _ (.ok (false, _)) => some d.pathwayId
  | .transitionWithEvent p _ _ _ (.ok ()) => some p
  | _ => none

/-- The number of the last step of a history, newest first, that writes a row. -/
def lastStep (writes : Step → Option String) (pathwayId : String) : List Record → Option ℕ
  | [] => none
  | e :: older => if writes e.step = some pathwayId then some older.length else lastStep writes pathwayId older

/-- What is read after a history, when `CURRENT_TIMESTAMP` was `clock i` at its step number `i`. -/
def ReadOnlyDatabase.ofHistory (clock : ℕ → String) (schemaVersion : Option ℤ) (h : History) : ReadOnlyDatabase where
  world := h.world
  schemaVersion := schemaVersion
  createdAt p := ((lastStep Step.insertsRow p h.trace).map clock).getD ""
  updatedAt p := ((lastStep Step.writesRow p h.trace).map clock).getD ""

/-- `evidence_events`, oldest first, with `sequence`. -/
def World.numbered (w : World) : List (EvidenceEvent × ℕ) := w.events.reverse.zipIdx 1

/-- Those of a pathway. -/
def World.numberedLog (w : World) (pathwayId : String) : List (EvidenceEvent × ℕ) :=
  w.numbered.filter fun row => row.1.pathwayId = pathwayId

/-- `compatibility_route_for_state`. -/
def compatibilityRouteForState : PathwayState → Option ResponsibilityRouteClass
  | .writeStatusUnknown => some .holdForReconciliation
  | .humanGate => some .boundedHumanReturn
  | _ => none

namespace SQLiteReadModel

/-- `ReadOnlyDatabaseError`. -/
def readOnlyDatabaseError (text : PyText) : ToolError :=
  ⟨.ofClass "ReadOnlyDatabaseError" ["RuntimeError"] text, some text, fun h => by cases h⟩

/-- `KeyError(pathway_id)`. -/
def pathwayNotFound (pathwayId : String) : ToolError :=
  ⟨.keyError (pyRepr pathwayId), some pathwayId, fun h => by cases h⟩

/-- A text that SQLite cannot bind. -/
def bindingError : ToolError := ⟨unicodeEncodeError, some "utf-8", fun _ => rfl⟩

/-- `_validated_limit`. -/
def validatedLimit (value : Json) (maximum : ℤ) : Except ToolError ℕ :=
  match value with
  | .int n =>
    if n < 1 ∨ maximum < n then
      .error (ReadOnlyRprMcpServer.toolValueError (PyText.utf8 ("limit must be between 1 and " ++ toString maximum)))
    else .ok n.toNat
  | _ => .error (ReadOnlyRprMcpServer.toolValueError "limit must be an integer")

/-- `_required_id`, and the text as SQLite binds it. -/
def requiredId (value : Json) : Except ToolError String :=
  let refused := ReadOnlyRprMcpServer.toolValueError "pathway_id must be a non-empty trimmed string"
  match value with
  | .str s =>
    if s.strip.length = 0 ∨ s ≠ s.strip then .error refused
    else
      match s with
      | .utf8 s => .ok s
      | .lone _ _ => .error bindingError
  | _ => .error refused

section Rows

variable (db : ReadOnlyDatabase)

/-- The order of texts. -/
def textLe (a b : String) : Bool := (PyText.utf8 a).le (.utf8 b)

/-- The order of keys by a column, and then by themselves. -/
def Before (column : String → String) (p q : String) : Prop :=
  textLe (column p) (column q) = true ∧ (textLe (column q) (column p) = true → textLe p q = true)

instance (column : String → String) (p q : String) : Decidable (Before column p q) :=
  inferInstanceAs (Decidable (_ ∧ _))

/-- `ORDER BY` a column and `pathway_id`. -/
def orderedBy (column : String → String) (rows : List (Sigma fun _ : String => PathwayRow)) :
    List (Sigma fun _ : String => PathwayRow) :=
  rows.insertionSort fun a b => Before column a.1 b.1

/-- `state NOT IN (...)` with `_TERMINAL_STATES`. -/
def unresolved : List (Sigma fun _ : String => PathwayRow) :=
  db.world.pathways.entries.filter fun row => row.2.state ∉ terminalStates

/-- `_pathway_row`. -/
def pathwayRow (row : Sigma fun _ : String => PathwayRow) : Json :=
  .obj [("pathway_id", .text row.1), ("state", .text row.2.state.value), ("definition", row.2.definitionJson),
    ("created_at", .text (db.createdAt row.1)), ("updated_at", .text (db.updatedAt row.1))]

def status : Except ToolError Json :=
  match db.schemaVersion with
  | none => .error (readOnlyDatabaseError "schema metadata is missing")
  | some version => .ok (.obj [("mode", .text "read_only"), ("schema_version", .int version),
      ("pathway_count", .int db.world.pathways.entries.length), ("unresolved_count", .int (unresolved db).length)])

def listPathways (limit : Json) : Except ToolError Json := do
  let limit ← validatedLimit limit 1000
  pure (.arr (((orderedBy db.createdAt db.world.pathways.entries).take limit).map (pathwayRow db)))

def listUnresolved (limit : Json) : Except ToolError Json := do
  let limit ← validatedLimit limit 1000
  pure (.arr (((orderedBy db.updatedAt (unresolved db)).take limit).map (pathwayRow db)))

/-- The row of a pathway. -/
def findPathway (pathwayId : Json) : Except ToolError (Sigma fun _ : String => PathwayRow) := do
  let pathwayId ← requiredId pathwayId
  match db.world.pathways.lookup pathwayId with
  | none => .error (pathwayNotFound pathwayId)
  | some row => pure ⟨pathwayId, row⟩

def getPathway (pathwayId : Json) : Except ToolError Json := do
  return pathwayRow db (← findPathway db pathwayId)

/-- `definition.get` of something else. -/
def noGet (definition : Json) : ToolError :=
  let typeName := match definition with
    | .null => "NoneType"
    | .bool _ => "bool"
    | .int _ => "int"
    | .float _ => "float"
    | .str _ => "str"
    | .arr _ => "list"
    | .obj _ => "dict"
  let text := PyText.utf8 ("'" ++ typeName ++ "' object has no attribute 'get'")
  ⟨.attributeError text, some text, fun h => by cases h⟩

/-- `build_route_visibility`. -/
def buildRouteVisibility (state : PathwayState) (definition : Json) : Except ToolError JsonObject :=
  match definition with
  | .obj fields =>
    let visible := fun declared : Json => Except.ok [(PyText.utf8 "state", Json.text state.value),
      (PyText.utf8 "compatibility_route",
        Json.optText ((compatibilityRouteForState state).map ResponsibilityRouteClass.value)),
      (PyText.utf8 "declared_route", declared),
      (PyText.utf8 "human_return_point", JsonObject.get fields "human_return_point"),
      (PyText.utf8 "residual_owner", JsonObject.get fields "residual_owner"),
      (PyText.utf8 "authority_inferred", Json.bool false)]
    match JsonObject.get fields "responsibility_route" with
    | .null => visible .null
    | .obj route => visible (.obj route)
    | _ => .error (ReadOnlyRprMcpServer.toolValueError "responsibility_route must be an object when present")
  | definition => .error (noGet definition)

def getRouteVisibility (pathwayId : Json) : Except ToolError Json := do
  let row ← findPathway db pathwayId
  let visible ← buildRouteVisibility row.2.state row.2.definitionJson
  pure (.obj ((PyText.utf8 "pathway_id", Json.text row.1) :: visible))

variable (codec : JsonCodec)

/-- A row of `get_evidence`. -/
def eventRow (row : EvidenceEvent × ℕ) : Json :=
  .obj [("sequence", .int row.2), ("event_hash", .text row.1.eventHash), ("event", codec.readBack row.1)]

def getEvidence (pathwayId limit : Json) : Except ToolError Json := do
  let pathwayId ← requiredId pathwayId
  let limit ← validatedLimit limit 5000
  if (db.world.state pathwayId).isNone then .error (pathwayNotFound pathwayId)
  else pure (.arr (((db.world.numberedLog pathwayId).take limit).map (eventRow codec)))

end Rows

end SQLiteReadModel

/-- `SQLiteReadModel` over a database. -/
def ReadOnlyDatabase.readModel (db : ReadOnlyDatabase) (codec : JsonCodec) : ReadModel where
  status := SQLiteReadModel.status db
  listPathways := SQLiteReadModel.listPathways db
  getPathway := SQLiteReadModel.getPathway db
  getRouteVisibility := SQLiteReadModel.getRouteVisibility db
  getEvidence := SQLiteReadModel.getEvidence db codec
  listUnresolved := SQLiteReadModel.listUnresolved db

end Rpr
