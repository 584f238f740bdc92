import PathwayRuntime.Store.Keyed

/-!
# The table holds the pathways of the store

* `StoredRow.Holds`, `Represents`: the rows of the table are those of the store, with the canonical text of the
  definition for its value.
* **`Represents.createOrReplayPathway`**, `Represents.moveState`: a registration and a change of state give the same
  answer on both, and leave a table that represents the store.
* `Represents.getDefinition`: so does reading a definition.
-/

set_option autoImplicit false

namespace Rpr

variable {py : Platform} {jp : JsonPlatform}

/-- A row of the table that holds a row of the store. -/
structure StoredRow.Holds (jp : JsonPlatform) (row : StoredRow) (stored : PathwayRow) : Prop where
  definition : canonicalJson jp stored.definitionJson = .ok row.definitionJson
  fingerprint : row.definitionFingerprint = some stored.definitionFingerprint
  state : row.state = stored.state
  key : row.idempotencyKey = stored.idempotencyKey

/-- The table holds exactly the pathways of the store. -/
structure Represents (jp : JsonPlatform) (t : PathwayTable) (w : World) : Prop where
  stored : ∀ row ∈ t.rows, ∃ stored, w.pathways.lookup row.pathwayId = some stored ∧ row.Holds jp stored
  row : ∀ {pathwayId : String} {stored : PathwayRow}, w.pathways.lookup pathwayId = some stored →
    ∃ row ∈ t.rows, row.pathwayId = pathwayId ∧ row.Holds jp stored

theorem World.byIdempotencyKey_some {w : World} {key pathwayId : String} {stored : PathwayRow}
    (h : w.byIdempotencyKey key = some (pathwayId, stored)) :
    w.pathways.lookup pathwayId = some stored ∧ stored.idempotencyKey = key := by
  obtain ⟨entry, hentry, heq⟩ := Option.map_eq_some_iff.mp h
  obtain ⟨rfl, rfl⟩ := Prod.mk.inj heq
  exact ⟨AList.mem_lookup_iff.mpr (List.mem_of_find?_eq_some hentry), by simpa using List.find?_some hentry⟩

theorem World.byIdempotencyKey_none {w : World} {key pathwayId : String} {stored : PathwayRow}
    (h : w.byIdempotencyKey key = none) (hstored : w.pathways.lookup pathwayId = some stored) :
    stored.idempotencyKey ≠ key := by
  have hnone := List.find?_eq_none.mp (Option.map_eq_none_iff.mp h) _ (AList.mem_lookup_iff.mp hstored)
  simpa using hnone

namespace Represents

variable {t : PathwayTable} {w : World}

theorem empty : Represents jp .empty .empty :=
  ⟨fun _ h => (List.not_mem_nil h).elim, fun h => nomatch h⟩

/-- Registering a pathway that is not there. -/
theorem create {d : PathwayDefinition} {c : List Char} {fp key : String} {state : PathwayState} {t' : PathwayTable}
    (h : Represents jp t w) (hcanonical : canonicalJson jp d.toDict = .ok c) (hnew : w.state d.pathwayId = none)
    (hinsert : t.insert ⟨d.pathwayId, c, some fp, state, key⟩ = .ok t') :
    Represents jp t' (w.create d.pathwayId ⟨d.toDict, fp, state, key⟩) := by
  have hrows := PathwayTable.insert_ok hinsert
  have hfree : w.pathways.lookup d.pathwayId = none := Option.map_eq_none_iff.mp hnew
  constructor
  · intro row hrow
    rcases List.mem_append.mp (hrows ▸ hrow) with hrow | hrow
    · obtain ⟨stored, hstored, hholds⟩ := h.stored row hrow
      have hne : row.pathwayId ≠ d.pathwayId := fun heq => by
        rw [heq, hfree] at hstored
        cases hstored
      exact ⟨stored, (AList.lookup_insert_ne hne).trans hstored, hholds⟩
    · obtain rfl := List.mem_singleton.mp hrow
      exact ⟨_, AList.lookup_insert _, hcanonical, rfl, rfl, rfl⟩
  · intro pathwayId stored hstored
    by_cases hid : pathwayId = d.pathwayId
    · obtain rfl := hid
      obtain rfl := Option.some.inj ((AList.lookup_insert _).symm.trans hstored)
      exact ⟨_, hrows ▸ List.mem_append_right _ List.mem_cons_self, rfl, hcanonical, rfl, rfl, rfl⟩
    · obtain ⟨row, hrow, hrowid, hholds⟩ := h.row ((AList.lookup_insert_ne hid).symm.trans hstored)
      exact ⟨row, hrows ▸ List.mem_append_left _ hrow, hrowid, hholds⟩

/-- The `INSERT` of a new pathway under a new key succeeds. -/
theorem exists_insert {row : StoredRow} (h : Represents jp t w) (hnew : w.state row.pathwayId = none)
    (hkey : w.byIdempotencyKey row.idempotencyKey = none) : ∃ t', t.insert row = .ok t' := by
  have hid : row.pathwayId ∉ t.rows.map StoredRow.pathwayId := by
    intro hmem
    obtain ⟨row', hrow', heq⟩ := List.mem_map.mp hmem
    obtain ⟨stored, hstored, -⟩ := h.stored row' hrow'
    rw [heq, Option.map_eq_none_iff.mp hnew] at hstored
    cases hstored
  have hunused : row.idempotencyKey ∉ t.rows.map StoredRow.idempotencyKey := by
    intro hmem
    obtain ⟨row', hrow', heq⟩ := List.mem_map.mp hmem
    obtain ⟨stored, hstored, hholds⟩ := h.stored row' hrow'
    exact World.byIdempotencyKey_none hkey hstored (hholds.key.symm.trans heq)
  exact ⟨_, by rw [PathwayTable.insert, dif_neg hid, dif_neg hunused]⟩

/-- **A registration gives the same answer on the table and on the store.** -/
theorem createOrReplayPathway {d : PathwayDefinition} {c : List Char} {key : String} (h : Represents jp t w)
    (hcanonical : canonicalJson jp d.toDict = .ok c) (hkey : isBlank key = false) (state : PathwayState) :
    (t.createOrReplayPathway py jp d state key).1 =
        (w.createOrReplayPathway d (py.sha256 c) state key).1.mapError .raised ∧
      Represents jp (t.createOrReplayPathway py jp d state key).2
        (w.createOrReplayPathway d (py.sha256 c) state key).2 := by
  unfold PathwayTable.createOrReplayPathway PathwayTable.createOrReplayText World.createOrReplayPathway
  rw [if_neg (by rw [hkey]; exact Bool.false_ne_true), hcanonical]
  cases hby : w.byIdempotencyKey key with
  | some found =>
    obtain ⟨pathwayId, stored⟩ := found
    obtain ⟨hstored, hstoredKey⟩ := World.byIdempotencyKey_some hby
    obtain ⟨row, hrow, rfl, hholds⟩ := h.row hstored
    have hfind := (find?_eq_some_iff_of_nodup t.idempotencyKey_unique).mpr ⟨hrow, hholds.key.trans hstoredKey⟩
    simp only [hfind, hholds.fingerprint, hholds.state, ne_eq, Option.some.injEq]
    split_ifs
    · exact ⟨rfl, h⟩
    · exact ⟨rfl, h⟩
  | none =>
    have hfind : (t.rows.find? fun row => row.idempotencyKey = key) = none := by
      refine List.find?_eq_none.mpr fun row hrow hrowKey => ?_
      obtain ⟨stored, hstored, hholds⟩ := h.stored row hrow
      exact World.byIdempotencyKey_none hby hstored (hholds.key.symm.trans (by simpa using hrowKey))
    simp only [hfind]
    cases hstate : w.state d.pathwayId with
    | none =>
      obtain ⟨t', hinsert⟩ := @exists_insert jp t w ⟨d.pathwayId, c, some (py.sha256 c), state, key⟩ h hstate hby
      simp only [hinsert, Option.isSome_none, Bool.false_eq_true, if_false]
      exact ⟨rfl, h.create hcanonical hstate hinsert⟩
    | some s =>
      obtain ⟨stored, hstored, -⟩ := Option.map_eq_some_iff.mp hstate
      obtain ⟨row, hrow, hid, -⟩ := h.row hstored
      have hmem : d.pathwayId ∈ t.rows.map StoredRow.pathwayId := List.mem_map.mpr ⟨row, hrow, hid⟩
      simp only [PathwayTable.insert, hmem, dif_pos, Option.isSome_some, if_true]
      exact ⟨rfl, h⟩

/-- **A change of state**, of a pathway that is in the expected state. -/
theorem moveState {pathwayId : String} {expected : PathwayState} (h : Represents jp t w)
    (hstate : w.state pathwayId = some expected) (target : PathwayState) :
    Represents jp (t.moveState pathwayId expected target) (w.setState pathwayId target) := by
  obtain ⟨stored, hstored, rfl⟩ := Option.map_eq_some_iff.mp hstate
  have hset : w.setState pathwayId target = w.create pathwayId { stored with state := target } := by
    rw [World.setState, hstored]
  -- The row of this pathway is in the expected state, so it moves.
  have hmoves : ∀ row ∈ t.rows, row.pathwayId = pathwayId →
      row.moveState pathwayId stored.state target = { row with state := target } ∧ row.Holds jp stored := by
    rintro row hrow rfl
    obtain ⟨found, hfound, hholds⟩ := h.stored row hrow
    obtain rfl := Option.some.inj (hfound.symm.trans hstored)
    exact ⟨if_pos ⟨rfl, hholds.state⟩, hholds⟩
  rw [hset]
  constructor
  · intro row' hrow'
    obtain ⟨row, hrow, rfl⟩ := List.mem_map.mp hrow'
    by_cases hid : row.pathwayId = pathwayId
    · obtain ⟨hmove, hholds⟩ := hmoves row hrow hid
      obtain rfl := hid
      rw [hmove]
      exact ⟨{ stored with state := target }, AList.lookup_insert _, hholds.definition, hholds.fingerprint, rfl,
        hholds.key⟩
    · rw [StoredRow.moveState, if_neg fun hmove => hid hmove.1]
      obtain ⟨found, hfound, hholds⟩ := h.stored row hrow
      exact ⟨found, (AList.lookup_insert_ne hid).trans hfound, hholds⟩
  · intro id found hfound
    by_cases hid : id = pathwayId
    · obtain rfl := hid
      obtain rfl := Option.some.inj ((AList.lookup_insert _).symm.trans hfound)
      obtain ⟨row, hrow, hrowid, -⟩ := h.row hstored
      obtain ⟨hmove, hholds⟩ := hmoves row hrow hrowid
      refine ⟨_, List.mem_map_of_mem hrow, ?_⟩
      rw [hmove]
      exact ⟨hrowid, hholds.definition, hholds.fingerprint, rfl, hholds.key⟩
    · obtain ⟨row, hrow, hrowid, hholds⟩ := h.row ((AList.lookup_insert_ne hid).symm.trans hfound)
      refine ⟨_, List.mem_map_of_mem hrow, ?_⟩
      rw [StoredRow.moveState, if_neg fun hmove => hid (hrowid.symm.trans hmove.1)]
      exact ⟨hrowid, hholds⟩

/-- **A definition is read from the table as from the store**, up to the order of the members of its metadata. -/
theorem getDefinition {d : PathwayDefinition} {stored : PathwayRow} (h : Represents jp t w)
    (hframes : jp.encoderFrames ≤ jp.scannerFrames) (hd : (Json.obj d.metadata).UniqueKeys)
    (hfloat : (Json.obj d.metadata).Leaves (Json.IsFloat jp))
    (hstored : w.pathways.lookup d.pathwayId = some stored) (hjson : stored.definitionJson = d.toDict) :
    ∃ metadata, (Json.obj metadata).sortKeys = (Json.obj d.metadata).sortKeys ∧
      t.getDefinition py jp d.pathwayId = .ok { d with metadata } ∧ w.getDefinition py d.pathwayId = .ok d := by
  obtain ⟨row, hrow, hid, hholds⟩ := h.row hstored
  obtain ⟨metadata, hsort, hread⟩ :=
    PathwayTable.getDefinition_stored hframes hd hfloat hrow hid (hjson ▸ hholds.definition)
  refine ⟨metadata, hsort, hread, ?_⟩
  simp only [World.getDefinition, World.definitionJson, hstored, Option.map_some, hjson]
  exact PathwayDefinition.fromDict_toDict py d

end Represents

end Rpr
