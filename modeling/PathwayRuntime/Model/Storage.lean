import PathwayRuntime.Model.Database
import PathwayRuntime.Model.Payload
import PathwayRuntime.Python.Loaded

/-!
# The `pathways` table

The table of `SQLiteStore` with the texts its columns hold.

* `StoredRow`, `PathwayTable`: its rows, with the constraints on `pathway_id` and `idempotency_key`.
* `PathwayTable.createOrReplayPathway`, `PathwayTable.getDefinition`, `PathwayTable.moveState`;
  `PathwayTable.createOrReplayDecoded`: a registration of what was decoded.
* `PathwayTable.backfillFingerprints`: what opening a database does to the rows of an earlier version.
-/

set_option autoImplicit false

namespace Rpr

/-- What the runtime raises, or `json`. -/
inductive StoreError : Type
  | raised (e : PyError)
  | json (e : PyException)
  deriving DecidableEq

/-- A row of `pathways`; one of an earlier version has no fingerprint. -/
structure StoredRow where
  pathwayId : String
  definitionJson : List Char
  definitionFingerprint : Option String
  state : PathwayState
  idempotencyKey : String

/-- `pathway_id TEXT PRIMARY KEY`, `idempotency_key TEXT UNIQUE`. -/
structure PathwayTable where
  rows : List StoredRow
  pathwayId_unique : (rows.map StoredRow.pathwayId).Nodup
  idempotencyKey_unique : (rows.map StoredRow.idempotencyKey).Nodup

def PathwayTable.empty : PathwayTable := ⟨[], List.nodup_nil, List.nodup_nil⟩

/-- The row under a unique column is found. -/
theorem find?_eq_some_iff_of_nodup {α β : Type} [DecidableEq β] {f : α → β} {xs : List α} (h : (xs.map f).Nodup)
    {b : β} {x : α} : (xs.find? fun x => f x = b) = some x ↔ x ∈ xs ∧ f x = b := by
  refine ⟨fun hx => ⟨List.mem_of_find?_eq_some hx, by simpa using List.find?_some hx⟩, fun ⟨hx, hb⟩ => ?_⟩
  cases hy : xs.find? fun x => f x = b with
  | none => exact absurd (decide_eq_true hb) (List.find?_eq_none.mp hy x hx)
  | some y =>
    have hyb : f y = b := by simpa using List.find?_some hy
    rw [List.inj_on_of_nodup_map h (List.mem_of_find?_eq_some hy) hx (hyb.trans hb.symm)]

theorem nodup_map_concat {α β : Type} {f : α → β} {xs : List α} {x : α} (h : (xs.map f).Nodup)
    (hx : f x ∉ xs.map f) : ((xs ++ [x]).map f).Nodup := by
  rw [List.map_append, List.map_singleton]
  exact List.nodup_append.mpr ⟨h, List.nodup_singleton _, fun a ha b hb hab =>
    hx (by rw [← List.mem_singleton.mp hb, ← hab]; exact ha)⟩

/-- `INSERT INTO pathways`. -/
def PathwayTable.insert (row : StoredRow) (t : PathwayTable) : Except StoreError PathwayTable :=
  if hid : row.pathwayId ∈ t.rows.map StoredRow.pathwayId then
    .error (.raised (.integrityError "UNIQUE constraint failed: pathways.pathway_id"))
  else if hkey : row.idempotencyKey ∈ t.rows.map StoredRow.idempotencyKey then
    .error (.raised (.integrityError "UNIQUE constraint failed: pathways.idempotency_key"))
  else .ok ⟨t.rows ++ [row], nodup_map_concat t.pathwayId_unique hid, nodup_map_concat t.idempotencyKey_unique hkey⟩

theorem PathwayTable.insert_ok {row : StoredRow} {t t' : PathwayTable} (h : t.insert row = .ok t') :
    t'.rows = t.rows ++ [row] := by
  unfold insert at h
  split_ifs at h
  cases h
  rfl

/-- `SET state = target WHERE pathway_id = pathwayId AND state = expected`, of one row. -/
def StoredRow.moveState (pathwayId : String) (expected target : PathwayState) (row : StoredRow) : StoredRow :=
  if row.pathwayId = pathwayId ∧ row.state = expected then { row with state := target } else row

theorem StoredRow.pathwayId_comp_moveState (pathwayId : String) (expected target : PathwayState) :
    StoredRow.pathwayId ∘ StoredRow.moveState pathwayId expected target = StoredRow.pathwayId := by
  funext row
  rw [Function.comp_apply, moveState]
  split_ifs <;> rfl

theorem StoredRow.idempotencyKey_comp_moveState (pathwayId : String) (expected target : PathwayState) :
    StoredRow.idempotencyKey ∘ StoredRow.moveState pathwayId expected target = StoredRow.idempotencyKey := by
  funext row
  rw [Function.comp_apply, moveState]
  split_ifs <;> rfl

section Store

variable (py : Platform) (jp : JsonPlatform)

/-- `_canonical_json`, encoded. -/
def canonicalJson (value : Json) : Except StoreError (List Char) :=
  if (PyValue.ofJson value).depth > jp.encoderFrames then .error (.json recursionError)
  else match value.canonical with
    | none => .error (.raised .encodeError)
    | some canonical => .ok canonical

/-- `_canonical_definition`, encoded: keys of the metadata that are no texts are sorted and written as `json.dumps`
does. -/
def DecodedDefinition.canonicalText (definition : DecodedDefinition) : Except StoreError (List Char) :=
  match Json.textFields definition.metadata with
  | some metadata => canonicalJson jp (definition.toDict metadata)
  | none =>
    if (PyValue.ofJson (definition.toDict (definition.metadata.map fun item => ("", item.2)))).depth >
        jp.encoderFrames then .error (.json recursionError)
    else match Json.dumpsItems definition.metadata with
      | .error e => .error (.raised e)
      | .ok metadata =>
        match Json.renderFields definition.baseFields, metadata, Json.renderFields definition.routeFields with
        | some base, some metadata, some route =>
          .ok (Json.renderObject (base ++ ⟨"metadata", metadata⟩ :: route))
        | _, _, _ => .error (.raised .encodeError)

/-- `create_or_replay_pathway`, of a pathway whose definition has this canonical text. -/
def PathwayTable.createOrReplayText (pathwayId : String) (canonical : Except StoreError (List Char))
    (state : PathwayState) (idempotencyKey : String) (t : PathwayTable) :
    Except StoreError (Bool × PathwayState) × PathwayTable :=
  if isBlank idempotencyKey then (.error (.raised (.valueError "idempotency_key is required")), t)
  else match canonical with
    | .error e => (.error e, t)
    | .ok canonical =>
      match t.rows.find? fun row => row.idempotencyKey = idempotencyKey with
      | some row =>
        if row.pathwayId ≠ pathwayId ∨ row.definitionFingerprint ≠ some (py.sha256 canonical) then
          (.error (.raised (.idempotencyConflictError
            "idempotency key already belongs to a different pathway request")), t)
        else (.ok (true, row.state), t)
      | none =>
        match t.insert ⟨pathwayId, canonical, some (py.sha256 canonical), state, idempotencyKey⟩ with
        | .error e => (.error e, t)
        | .ok t' => (.ok (false, state), t')

/-- `create_or_replay_pathway`. -/
def PathwayTable.createOrReplayPathway (definition : PathwayDefinition) (state : PathwayState) (idempotencyKey : String)
    (t : PathwayTable) : Except StoreError (Bool × PathwayState) × PathwayTable :=
  t.createOrReplayText py definition.pathwayId (canonicalJson jp definition.toDict) state idempotencyKey

/-- `create_or_replay_pathway`, of a definition as `from_dict` builds it. -/
def PathwayTable.createOrReplayDecoded (definition : DecodedDefinition) (state : PathwayState)
    (idempotencyKey : String) (t : PathwayTable) : Except StoreError (Bool × PathwayState) × PathwayTable :=
  t.createOrReplayText py definition.pathwayId (definition.canonicalText jp) state idempotencyKey

/-- `get_definition`. -/
def PathwayTable.getDefinition (pathwayId : String) (t : PathwayTable) : Except StoreError PathwayDefinition :=
  match t.rows.find? fun row => row.pathwayId = pathwayId with
  | none => .error (.raised (.keyError pathwayId))
  | some row =>
    match loads jp defaultHooks row.definitionJson with
    | .error e => .error (.json e)
    | .ok value => (PathwayDefinition.fromDict py value).mapError .raised

/-- The `UPDATE` of `transition_with_event`. -/
def PathwayTable.moveState (pathwayId : String) (expected target : PathwayState) (t : PathwayTable) : PathwayTable where
  rows := t.rows.map (StoredRow.moveState pathwayId expected target)
  pathwayId_unique := by
    rw [List.map_map, StoredRow.pathwayId_comp_moveState]
    exact t.pathwayId_unique
  idempotencyKey_unique := by
    rw [List.map_map, StoredRow.idempotencyKey_comp_moveState]
    exact t.idempotencyKey_unique

/-! ## Rows of an earlier version -/

/-- `definition_fingerprint IS NULL OR definition_fingerprint = ''`. -/
def StoredRow.isLegacy (row : StoredRow) : Bool := row.definitionFingerprint.getD "" == ""

/-- What `_backfill_fingerprints` does to a row. -/
def StoredRow.backfill (row : StoredRow) : Except StoreError StoredRow :=
  if row.isLegacy then
    match loads jp defaultHooks row.definitionJson with
    | .error e => .error (.json e)
    | .ok value => (canonicalJson jp value).map fun canonical =>
      { row with definitionJson := canonical, definitionFingerprint := some (py.sha256 canonical) }
  else .ok row

def backfillRows : List StoredRow → Except StoreError (List StoredRow)
  | [] => .ok []
  | row :: rows => do
    let row ← row.backfill py jp
    let rows ← backfillRows rows
    .ok (row :: rows)

variable {py jp}

/-- A row keeps its id, its state and its key. -/
theorem StoredRow.backfill_keeps {row row' : StoredRow} (h : row.backfill py jp = .ok row') :
    row'.pathwayId = row.pathwayId ∧ row'.state = row.state ∧ row'.idempotencyKey = row.idempotencyKey := by
  rw [backfill] at h
  split_ifs at h
  · split at h
    · cases h
    · obtain ⟨canonical, -, rfl⟩ := map_eq_ok h
      exact ⟨rfl, rfl, rfl⟩
  · cases h
    exact ⟨rfl, rfl, rfl⟩

theorem forall₂_backfillRows {rows rows' : List StoredRow} (h : backfillRows py jp rows = .ok rows') :
    List.Forall₂ (fun row row' => row.backfill py jp = .ok row') rows rows' := by
  induction rows generalizing rows' with
  | nil =>
    cases h
    exact .nil
  | cons row rows ih =>
    obtain ⟨row₁, hrow, h⟩ := except_bind_eq_ok.mp h
    obtain ⟨rows₁, hrows, h⟩ := except_bind_eq_ok.mp h
    cases h
    exact .cons hrow (ih hrows)

theorem map_backfillRows {α : Type} {f : StoredRow → α} {rows rows' : List StoredRow}
    (hf : ∀ row row' : StoredRow, row.backfill py jp = .ok row' → f row' = f row)
    (h : backfillRows py jp rows = .ok rows') : rows'.map f = rows.map f := by
  have hrows := forall₂_backfillRows h
  clear h
  induction hrows with
  | nil => rfl
  | cons hrow _ ih => rw [List.map_cons, List.map_cons, hf _ _ hrow, ih]

variable (py jp)

/-- `_backfill_fingerprints`. -/
def PathwayTable.backfillFingerprints (t : PathwayTable) : Except StoreError PathwayTable :=
  match h : backfillRows py jp t.rows with
  | .error e => .error e
  | .ok rows => .ok {
      rows
      pathwayId_unique := by
        rw [map_backfillRows (fun _ _ hrow => (StoredRow.backfill_keeps hrow).1) h]
        exact t.pathwayId_unique
      idempotencyKey_unique := by
        rw [map_backfillRows (fun _ _ hrow => (StoredRow.backfill_keeps hrow).2.2) h]
        exact t.idempotencyKey_unique }

end Store

end Rpr
