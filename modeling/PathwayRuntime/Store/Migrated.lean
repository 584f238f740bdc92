import PathwayRuntime.Model.Mapped
import PathwayRuntime.Store.Keyed

/-!
# Registrations of an earlier version

* `DecodedDefinition.fromDict_uniqueKeys`: what is decoded holds dicts.
* `DecodedDefinition.exists_sortKeys`: the text of what was decoded is that of its source only for metadata with texts
  for keys.
* `exists_backfilled`: a row of an earlier version, after the database was opened.
* **`migrated_replays_iff`**: its registration is replayed exactly when its text is, up to the order of members,
  one that is written for a definition; `migrated_conflicts`: a member with a default that is absent.
-/

set_option autoImplicit false

namespace Rpr

variable {py : Platform} {jp : JsonPlatform}

open Json

/-- Values that differ in the order of members only have one canonical text. -/
theorem canonicalJson_congr {i j : Json} {c : List Char} (hi : i.UniqueKeys) (hj : j.UniqueKeys)
    (hsort : i.sortKeys = j.sortKeys) (h : canonicalJson jp i = .ok c) : canonicalJson jp j = .ok c := by
  obtain ⟨hdepth, hc⟩ := canonicalJson_eq_ok.mp h
  refine canonicalJson_eq_ok.mpr ⟨?_, Json.canonical_congr hi hj hsort hc⟩
  rw [← Json.depth_sortKeys, ← hsort, Json.depth_sortKeys]
  exact hdepth

namespace DecodedDefinition

variable {d : DecodedDefinition} {j : Json} {metadata : List (PyText × Json)}

/-- Where the authority and the metadata come from. -/
theorem members_of_fromDict (h : fromDict py j = .ok d) :
    d.approvalAuthority = (j.get? "approval_authority").getD .null ∧ j.mapping "metadata" = .ok d.metadata := by
  unfold fromDict at h
  dsimp only at h
  split at h <;>
    · iterate 15 obtain ⟨_, -, h⟩ := except_bind_eq_ok.mp h
      obtain ⟨metadata, hmetadata, h⟩ := except_bind_eq_ok.mp h
      obtain rfl := Except.ok.inj h
      exact ⟨rfl, hmetadata⟩

theorem authority_uniqueKeys (hj : j.UniqueKeys) (h : fromDict py j = .ok d) : d.approvalAuthority.UniqueKeys := by
  rw [(members_of_fromDict h).1]
  cases hv : j.get? "approval_authority" with
  | none => trivial
  | some v => exact hj.get? hv

/-- The metadata is that of an object, or its keys are no texts. -/
theorem metadata_cases (hj : j.UniqueKeys) (h : fromDict py j = .ok d) :
    (∀ item ∈ d.metadata, item.2.UniqueKeys) ∧
      ((∃ fields, textFields d.metadata = some fields ∧ (Json.obj fields).UniqueKeys) ∨
        textFields d.metadata = none ∧ ∃ v, j.get? "metadata" = some v ∧ ∀ fields, v ≠ .obj fields) := by
  have hmapping := (members_of_fromDict h).2
  rw [mapping] at hmapping
  cases hv : j.get? "metadata" with
  | none =>
    rw [hv] at hmapping
    rw [← Except.ok.inj hmapping]
    exact ⟨fun _ hi => (List.not_mem_nil hi).elim, .inl ⟨[], rfl, List.nodup_nil, trivial⟩⟩
  | some v =>
    rw [hv] at hmapping
    refine ⟨asItems_uniqueKeys hmapping (hj.get? hv), ?_⟩
    cases hfields : textFields d.metadata with
    | some fields => exact .inl ⟨fields, rfl, uniqueKeys_of_asItems (hj.get? hv) hmapping hfields⟩
    | none =>
      refine .inr ⟨rfl, v, rfl, fun fields hobj => ?_⟩
      rw [hobj] at hmapping
      rw [← Except.ok.inj hmapping, textFields_asItems] at hfields
      cases hfields

/-- Another authority and other metadata, with their members in another order. -/
theorem sortKeys_toDict_congr {authority : Json} {metadata' : List (PyText × Json)}
    (ha : authority.sortKeys = d.approvalAuthority.sortKeys)
    (hm : (Json.obj metadata').sortKeys = (Json.obj metadata).sortKeys) :
    (({ d with approvalAuthority := authority } : DecodedDefinition).toDict metadata').sortKeys =
      (d.toDict metadata).sortKeys := by
  have hbase : sortFields ({ d with approvalAuthority := authority } : DecodedDefinition).baseFields =
      sortFields d.baseFields := by
    simp only [baseFields, sortFields, ha]
  rw [toDict, toDict, sortKeys, sortKeys]
  simp only [sortFields_eq_map, List.map_append, List.map_cons] at hbase ⊢
  have hroute : ({ d with approvalAuthority := authority } : DecodedDefinition).routeFields = d.routeFields := rfl
  rw [hbase, hm, hroute]

/-- The text of metadata whose keys are not all texts is read as an object. -/
theorem reads_canonicalText {c : List Char} (h : d.canonicalText jp = .ok c) (hfields : textFields d.metadata = none)
    (ha : d.approvalAuthority.UniqueKeys) (hd : ∀ item ∈ d.metadata, item.2.UniqueKeys) :
    ∃ fields written, (fields.map Prod.fst).Nodup ∧ (PyText.utf8 "metadata", Json.obj written) ∈ fields ∧
      Reads c (.obj fields) := by
  have hu : (d.toDict []).UniqueKeys := toDict_uniqueKeys ha ⟨List.nodup_nil, trivial⟩
  have hsplit : UniqueFields d.baseFields ∧ UniqueFields d.routeFields := by
    have hall := uniqueFields_iff.mp hu.2
    exact ⟨uniqueFields_iff.mpr fun f hf => hall f (List.mem_append_left _ hf),
      uniqueFields_iff.mpr fun f hf => hall f (List.mem_append_right _ (List.mem_cons_of_mem _ hf))⟩
  simp only [canonicalText, hfields] at h
  split_ifs at h
  cases hdumps : dumpsItems d.metadata with
  | error e =>
    rw [hdumps] at h
    cases h
  | ok text =>
    simp only [hdumps] at h
    cases hbase : renderFields d.baseFields with
    | none => simp [hbase] at h
    | some base =>
      cases text with
      | none => simp [hbase] at h
      | some text =>
        cases hroute : renderFields d.routeFields with
        | none => simp [hbase, hroute] at h
        | some route =>
          simp only [hbase, hroute, Except.ok.injEq] at h
          obtain ⟨written, hwritten, hread⟩ := reads_dumpsItems hdumps hd
          obtain ⟨fields, rfl⟩ : ∃ fields, written = .obj fields := by
            simp only [writtenItems, hfields] at hwritten
            obtain ⟨sorted, -, hwritten⟩ := Option.bind_eq_some_iff.mp hwritten
            obtain ⟨fields, -, rfl⟩ := Option.map_eq_some_iff.mp hwritten
            exact ⟨_, rfl⟩
          have hmembers : List.Forall₂ MemberReads (base ++ ⟨"metadata", text⟩ :: route)
              (sortFields d.baseFields ++ (PyText.utf8 "metadata", .obj fields) :: sortFields d.routeFields) :=
            List.rel_append (memberReads_renderFields hbase hsplit.1)
              (.cons ⟨rfl, hread⟩ (memberReads_renderFields hroute hsplit.2))
          refine ⟨_, fields, ?_, ?_, h ▸ reads_renderObject hmembers⟩
          · refine ((List.perm_insertionSort _ _).map Prod.fst).nodup_iff.mpr ?_
            have hnd := d.nodup_fields []
            simp only [sortFields_eq_map, List.map_append, List.map_cons, List.map_map] at hnd ⊢
            exact hnd
          · exact (List.perm_insertionSort _ _).mem_iff.mpr (List.mem_append_right _ List.mem_cons_self)

/-- **When what was decoded has the text of its source**, its metadata has texts for keys, and the source is what is
written for it. -/
theorem exists_sortKeys {c : List Char} (hj : j.UniqueKeys) (hd : fromDict py j = .ok d)
    (hcanonical : canonicalJson jp j = .ok c) (h : d.canonicalText jp = .ok c) :
    ∃ metadata, (d.toDict metadata).UniqueKeys ∧ j.sortKeys = (d.toDict metadata).sortKeys := by
  have ha := authority_uniqueKeys hj hd
  have hc := (canonicalJson_eq_ok.mp hcanonical).2
  obtain ⟨hitems, ⟨metadata, hfields, hu⟩ | ⟨hfields, v, hv, hne⟩⟩ := metadata_cases hj hd
  · simp only [canonicalText, hfields] at h
    have hud := toDict_uniqueKeys ha hu
    exact ⟨metadata, hud, canonical_inj hc (canonicalJson_eq_ok.mp h).2 hj hud⟩
  · obtain ⟨fields, written, hnd, hmem, hread⟩ := reads_canonicalText h hfields ha hitems
    have hsame : j.sortKeys = .obj fields := (reads_canonical hc hj).unique hread
    have hget := get?_sortKeys hj "metadata"
    rw [hsame, hv, Option.map_some] at hget
    have hobj : Json.obj written = v.sortKeys := Option.some.inj (((lookup_eq_some hnd).mpr hmem).symm.trans hget)
    cases v with
    | obj fields' => exact absurd rfl (hne fields')
    | null | bool _ | int _ | float _ | str _ | arr _ => cases hobj

/-- What is written for a definition is decoded to what has its text. -/
theorem canonicalText_of_sortKeys {c : List Char} (hj : j.UniqueKeys) (hd : fromDict py j = .ok d)
    (hcanonical : canonicalJson jp j = .ok c) {d' : DecodedDefinition} (hu : (d'.toDict metadata).UniqueKeys)
    (hsort : j.sortKeys = (d'.toDict metadata).sortKeys) : d.canonicalText jp = .ok c := by
  obtain ⟨authority, metadata', ha, hm, hread⟩ := fromDict_resorted py (hu.get? (d'.get?_authority metadata))
    (hu.get? (d'.get?_metadata metadata)) hj hsort
  obtain rfl := Except.ok.inj (hd.symm.trans hread)
  have hfields : textFields (itemsOf metadata') = some metadata' := textFields_asItems metadata'
  have hauthority : authority.UniqueKeys := authority_uniqueKeys hj hd
  have hmetadata : (Json.obj metadata').UniqueKeys := by
    obtain ⟨-, ⟨fields, hsome, hfields'⟩ | ⟨hnone, -⟩⟩ := metadata_cases hj hd
    · obtain rfl := Option.some.inj (hfields.symm.trans hsome)
      exact hfields'
    · exact absurd (hfields.symm.trans hnone) (by simp)
  simp only [canonicalText, hfields]
  exact canonicalJson_congr hj (toDict_uniqueKeys hauthority hmetadata)
    (hsort.trans (sortKeys_toDict_congr ha hm).symm) hcanonical

end DecodedDefinition

/-! ## Opening a database -/

theorem StoredRow.backfill_legacy {row : StoredRow} {j : Json} {c : List Char} (hlegacy : row.isLegacy = true)
    (hj : loads jp defaultHooks row.definitionJson = .ok j) (hc : canonicalJson jp j = .ok c) :
    row.backfill py jp = .ok { row with definitionJson := c, definitionFingerprint := some (py.sha256 c) } := by
  rw [backfill, if_pos hlegacy, hj]
  simp only [hc]
  rfl

/-- A row of an earlier version, after the database was opened. -/
theorem exists_backfilled {t t' : PathwayTable} {row : StoredRow} {j : Json} (hrow : row ∈ t.rows)
    (hlegacy : row.isLegacy = true) (hopen : t.backfillFingerprints py jp = .ok t')
    (hj : loads jp defaultHooks row.definitionJson = .ok j) : ∃ canonical, canonicalJson jp j = .ok canonical ∧
      { row with definitionJson := canonical, definitionFingerprint := some (py.sha256 canonical) } ∈ t'.rows := by
  obtain ⟨row', hrow', hbackfill⟩ :=
    exists_mem_of_forall₂ (forall₂_backfillRows (PathwayTable.backfillFingerprints_ok hopen)) hrow
  rw [StoredRow.backfill, if_pos hlegacy, hj] at hbackfill
  obtain ⟨canonical, hcanonical, rfl⟩ := map_eq_ok hbackfill
  exact ⟨canonical, hcanonical, hrow'⟩

theorem exists_backfillFingerprints {t : PathwayTable} {rows : List StoredRow}
    (h : backfillRows py jp t.rows = .ok rows) : ∃ t', t.backfillFingerprints py jp = .ok t' ∧ t'.rows = rows := by
  unfold PathwayTable.backfillFingerprints
  split
  · rename_i e he
    cases he.symm.trans h
  · rename_i rows' hrows'
    exact ⟨_, rfl, Except.ok.inj (hrows'.symm.trans h)⟩

/-- **A registration of an earlier version** is replayed in the state of its row if and only if its key is not blank,
its row has the id of the definition, and its text is, up to the order of members, one that is written for a
definition. -/
theorem migrated_replays_iff (hsha : Function.Injective py.sha256) {t t' : PathwayTable} {row : StoredRow} {j : Json}
    {d : DecodedDefinition} (hrow : row ∈ t.rows) (hlegacy : row.isLegacy = true)
    (hopen : t.backfillFingerprints py jp = .ok t') (hj : loads jp defaultHooks row.definitionJson = .ok j)
    (hd : DecodedDefinition.fromDict py j = .ok d) (state : PathwayState) :
    (t'.createOrReplayDecoded py jp d state row.idempotencyKey).1 = .ok (true, row.state) ↔
      isBlank row.idempotencyKey = false ∧ row.pathwayId = d.pathwayId ∧
        ∃ (d' : DecodedDefinition) (metadata : List (PyText × Json)),
          (d'.toDict metadata).UniqueKeys ∧ j.sortKeys = (d'.toDict metadata).sortKeys := by
  have huj := loads_uniqueKeys hj
  obtain ⟨canonical, hcanonical, hrow'⟩ := exists_backfilled hrow hlegacy hopen hj
  constructor
  · intro h
    unfold PathwayTable.createOrReplayDecoded at h
    rcases PathwayTable.createOrReplayText_cases py d.pathwayId (d.canonicalText jp) state row.idempotencyKey t' with
      ⟨e, heq⟩ | ⟨found, c, hfound, hkey, hblank, hid, hc, hfp, -⟩ | ⟨c, t'', -, -, -, heq⟩
    · rw [heq] at h
      cases h
    · obtain rfl := List.inj_on_of_nodup_map t'.idempotencyKey_unique hfound hrow' hkey
      obtain rfl := hsha (Option.some.inj hfp)
      exact ⟨hblank, hid, d, DecodedDefinition.exists_sortKeys huj hd hcanonical hc⟩
    · rw [heq] at h
      cases h
  · rintro ⟨hblank, hid, d', metadata, hu, hsort⟩
    have htext := DecodedDefinition.canonicalText_of_sortKeys huj hd hcanonical hu hsort
    unfold PathwayTable.createOrReplayDecoded
    rw [htext, ← hid, PathwayTable.createOrReplayText_replays hrow' rfl hblank rfl]

/-! ## Absent members -/

/-- A definition of an earlier version, without the members that have a default. -/
def shortJson : Json :=
  .obj [("action_class", .text "observe_only"), ("action_name", .text "write"), ("decision_owner", .text "owner"),
    ("environment_trust", .text "trusted_internal"), ("evidence_owner", .text "auditor"),
    ("execution_actor", .text "executor"), ("human_return_point", .text "desk"), ("pathway_id", .text "p"),
    ("repair_owner", .text "repairer"), ("residual_owner", .text "residual"), ("resume_authority", .text "resumer"),
    ("stop_authority", .text "stopper")]

def shortText : List Char :=
  "\x7b\"action_class\":\"observe_only\",\"action_name\":\"write\",\"decision_owner\":\"owner\",".toList ++
    "\"environment_trust\":\"trusted_internal\",\"evidence_owner\":\"auditor\",".toList ++
    "\"execution_actor\":\"executor\",\"human_return_point\":\"desk\",\"pathway_id\":\"p\",".toList ++
    "\"repair_owner\":\"repairer\",\"residual_owner\":\"residual\",\"resume_authority\":\"resumer\",".toList ++
    "\"stop_authority\":\"stopper\"\x7d".toList

/-- The same definition as it is written now. -/
def fullText : List Char :=
  "\x7b\"action_class\":\"observe_only\",\"action_name\":\"write\",\"approval_authority\":null,".toList ++
    "\"decision_owner\":\"owner\",\"environment_trust\":\"trusted_internal\",".toList ++
    "\"evidence_owner\":\"auditor\",\"execution_actor\":\"executor\",\"human_return_point\":\"desk\",".toList ++
    "\"metadata\":\x7b\x7d,\"pathway_id\":\"p\",\"repair_owner\":\"repairer\",".toList ++
    "\"residual_owner\":\"residual\",\"resume_authority\":\"resumer\",\"stop_authority\":\"stopper\"\x7d".toList

def migratedPlatform : Platform := .withDigests [
  (shortText, "e299ac105f902db57426eaf855f752f9e2d77167b3b1d5c3daa26d4af4556775"),
  (fullText, "842c439e9ccfd1f5dab46eaac22f8f660a80d657ab409f9d0a81e4ebfc906c5e")]

/-- A database of an earlier version with one row. -/
def earlierTable (definitionJson : List Char) : PathwayTable where
  rows := [⟨"p", definitionJson, none, .awaitingApproval, "key"⟩]
  pathwayId_unique := List.nodup_singleton _
  idempotencyKey_unique := List.nodup_singleton _

theorem canonicalJson_shortJson : canonicalJson .sample shortJson = .ok shortText := by
  decide +kernel

theorem canonicalJson_sample : canonicalJson .sample (PathwayDefinition.sample none).toDict = .ok fullText := by
  decide +kernel

theorem loads_shortText : loads .sample defaultHooks shortText = .ok shortJson := by
  have hu : shortJson.UniqueKeys := ⟨by simp, by simp [Json.UniqueFields, Json.text, Json.UniqueKeys]⟩
  have hread : shortJson.Leaves (Json.ReadsFloats .sample defaultHooks) := by
    simp [shortJson, Json.Leaves, Json.LeavesFields, Json.ReadsFloats, Json.text]
  exact Json.loads_canonical defaultHooks_keepsObjects (canonicalJson_eq_ok.mp canonicalJson_shortJson).2 hu hread
    (by decide)

theorem loads_fullText : loads .sample defaultHooks fullText = .ok (PathwayDefinition.sample none).toDict.sortKeys := by
  have hu : (PathwayDefinition.sample none).toDict.UniqueKeys :=
    PathwayDefinition.toDict_uniqueKeys ⟨List.nodup_nil, trivial⟩
  exact Json.loads_canonical defaultHooks_keepsObjects (canonicalJson_eq_ok.mp canonicalJson_sample).2 hu
    (PathwayDefinition.toDict_leaves trivial (fun _ => trivial) trivial) (by decide)

/-- Opening the database of one row. -/
theorem exists_opened (py : Platform) {text canonical : List Char} {j : Json}
    (hj : loads .sample defaultHooks text = .ok j) (hcanonical : canonicalJson .sample j = .ok canonical) :
    ∃ t, (earlierTable text).backfillFingerprints py .sample = .ok t ∧
      t.rows = [⟨"p", canonical, some (py.sha256 canonical), .awaitingApproval, "key"⟩] := by
  refine exists_backfillFingerprints ?_
  rw [earlierTable, backfillRows, StoredRow.backfill_legacy (j := j) rfl hj hcanonical]
  rfl

theorem migrated_replays_full : ∃ t, (earlierTable fullText).backfillFingerprints migratedPlatform .sample = .ok t ∧
    (t.createOrReplayDecoded migratedPlatform .sample (PathwayDefinition.sample none).decoded .proposed "key").1 =
      .ok (true, .awaitingApproval) := by
  have hu : (Json.obj (PathwayDefinition.sample none).metadata).UniqueKeys := ⟨List.nodup_nil, trivial⟩
  have hsha : Function.Injective migratedPlatform.sha256 := Platform.withDigests_injective (by simp) fun p hp => by
    simp only [List.mem_cons, List.not_mem_nil, or_false] at hp
    rcases hp with rfl | rfl <;> decide
  have hcanonical : canonicalJson .sample (PathwayDefinition.sample none).toDict.sortKeys = .ok fullText :=
    canonicalJson_congr (PathwayDefinition.toDict_uniqueKeys hu) (loads_uniqueKeys loads_fullText)
      (Json.sortKeys_sortKeys _).symm canonicalJson_sample
  obtain ⟨t, hopen, -⟩ := exists_opened migratedPlatform loads_fullText hcanonical
  have hread : DecodedDefinition.fromDict migratedPlatform (PathwayDefinition.sample none).toDict.sortKeys =
      .ok (PathwayDefinition.sample none).decoded := rfl
  have hrow : ⟨"p", fullText, none, .awaitingApproval, "key"⟩ ∈ (earlierTable fullText).rows :=
    List.mem_singleton_self _
  refine ⟨t, hopen, (migrated_replays_iff hsha hrow rfl hopen loads_fullText hread .proposed).mpr ?_⟩
  refine ⟨by decide, rfl, (PathwayDefinition.sample none).decoded, [], ?_, Json.sortKeys_sortKeys _⟩
  exact PathwayDefinition.toDict_uniqueKeys hu

/-- **Absent members**: the row is read as a definition, but registering it is a conflict. -/
theorem migrated_conflicts : ∃ t j, (earlierTable shortText).backfillFingerprints migratedPlatform .sample = .ok t ∧
    loads .sample defaultHooks shortText = .ok j ∧
    DecodedDefinition.fromDict migratedPlatform j = .ok (PathwayDefinition.sample none).decoded ∧
    (t.createOrReplayDecoded migratedPlatform .sample (PathwayDefinition.sample none).decoded .proposed "key").1 =
      .error (.raised (.idempotencyConflictError
        "idempotency key already belongs to a different pathway request")) := by
  obtain ⟨t, hopen, hrows⟩ := exists_opened migratedPlatform loads_shortText canonicalJson_shortJson
  refine ⟨t, shortJson, hopen, loads_shortText, rfl, ?_⟩
  have hne : migratedPlatform.sha256 shortText ≠ migratedPlatform.sha256 fullText := by decide +kernel
  have hblank : isBlank "key" = false := by decide
  have htext : (PathwayDefinition.sample none).decoded.canonicalText .sample = .ok fullText := canonicalJson_sample
  simp only [PathwayTable.createOrReplayDecoded, PathwayTable.createOrReplayText, hblank, htext, hrows, List.find?_cons]
  simp [hne, PathwayDefinition.decoded]

end Rpr
