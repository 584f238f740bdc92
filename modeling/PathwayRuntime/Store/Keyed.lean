import PathwayRuntime.Ledger.Fingerprint
import PathwayRuntime.Model.Storage
import PathwayRuntime.Stdio.Json
import PathwayRuntime.Store.Definition

/-!
# Registration is keyed by the definition

* `StoredRow.Written`, `PathwayTable.Reached`: what a row holds, and the tables the runtime leaves; `Reached.written`.
* `createOrReplayPathway_cases`: what a registration does.
* **`register_keyed`**: it replays exactly under the key of the same definition, creates one row, or raises and
  changes nothing; what it created is read back.
-/

set_option autoImplicit false

namespace Rpr

variable {py : Platform} {jp : JsonPlatform}

theorem canonicalJson_eq_ok {j : Json} {c : List Char} :
    canonicalJson jp j = .ok c ↔ (PyValue.ofJson j).depth ≤ jp.encoderFrames ∧ Json.canonical j = some c := by
  unfold canonicalJson
  split_ifs with h
  · exact iff_of_false (fun h => nomatch h) fun hc => absurd hc.1 (by omega)
  · cases Json.canonical j with
    | none => exact iff_of_false (fun h => nomatch h) fun hc => nomatch hc.2
    | some c' =>
      exact ⟨fun hc => ⟨by omega, congrArg some (Except.ok.inj hc)⟩,
        fun hc => congrArg Except.ok (Option.some.inj hc.2)⟩

/-! ## Rows -/

/-- A row of an earlier version: its text names its pathway. -/
structure StoredRow.Earlier (jp : JsonPlatform) (row : StoredRow) : Prop where
  legacy : row.isLegacy = true
  key : isBlank row.idempotencyKey = false
  names : ∀ j, loads jp defaultHooks row.definitionJson = .ok j → j.get? "pathway_id" = some (.text row.pathwayId)

/-- A row of this version: the canonical text of a value that names its pathway, with its digest. -/
structure StoredRow.Written (py : Platform) (jp : JsonPlatform) (row : StoredRow) : Prop where
  key : isBlank row.idempotencyKey = false
  fingerprint : row.definitionFingerprint = some (py.sha256 row.definitionJson)
  definition : ∃ j : Json, j.UniqueKeys ∧ canonicalJson jp j = .ok row.definitionJson ∧
    j.get? "pathway_id" = some (.text row.pathwayId)

theorem StoredRow.Written.moveState {row : StoredRow} (h : row.Written py jp) (pathwayId : String)
    (expected target : PathwayState) : (row.moveState pathwayId expected target).Written py jp := by
  unfold StoredRow.moveState
  split_ifs
  · exact ⟨h.key, h.fingerprint, h.definition⟩
  · exact h

/-- Opening the database writes the rows of an earlier version. -/
theorem StoredRow.Earlier.written {row row' : StoredRow} (h : row.Earlier jp) (hrow : row.backfill py jp = .ok row') :
    row'.Written py jp := by
  rw [backfill, if_pos h.legacy] at hrow
  split at hrow
  · cases hrow
  · rename_i value hvalue
    obtain ⟨canonical, hcanonical, rfl⟩ := map_eq_ok hrow
    exact ⟨h.key, rfl, value, loads_uniqueKeys hvalue, hcanonical, h.names value hvalue⟩

theorem backfill_of_not_legacy {row : StoredRow} (h : row.isLegacy = false) : row.backfill py jp = .ok row := by
  rw [StoredRow.backfill, h, if_neg Bool.false_ne_true]

/-! ## Tables -/

theorem exists_mem_of_forall₂ {α β : Type} {R : α → β → Prop} {xs : List α} {ys : List β} (h : List.Forall₂ R xs ys)
    {x : α} (hx : x ∈ xs) : ∃ y ∈ ys, R x y := by
  induction h with
  | nil => exact (List.not_mem_nil hx).elim
  | cons hab _ ih =>
    rcases List.mem_cons.mp hx with rfl | hx
    · exact ⟨_, List.mem_cons_self, hab⟩
    · obtain ⟨y, hy, hR⟩ := ih hx
      exact ⟨y, List.mem_cons_of_mem _ hy, hR⟩

namespace PathwayTable

/-- The tables the runtime leaves: it opens a database, registers pathways and moves their states. -/
inductive Reached (py : Platform) (jp : JsonPlatform) : PathwayTable → Prop
  | opened {t t' : PathwayTable} (hrows : ∀ row ∈ t.rows, row.Earlier jp ∨ row.isLegacy = false ∧ row.Written py jp)
      (h : t.backfillFingerprints py jp = .ok t') : Reached py jp t'
  | registered {t : PathwayTable} (d : PathwayDefinition) (state : PathwayState) (key : String) (h : Reached py jp t)
      (hd : (Json.obj d.metadata).UniqueKeys) : Reached py jp (t.createOrReplayPathway py jp d state key).2
  | moved {t : PathwayTable} (pathwayId : String) (expected target : PathwayState) (h : Reached py jp t) :
      Reached py jp (t.moveState pathwayId expected target)

theorem backfillFingerprints_ok {t t' : PathwayTable} (h : t.backfillFingerprints py jp = .ok t') :
    backfillRows py jp t.rows = .ok t'.rows := by
  unfold backfillFingerprints at h
  split at h
  · cases h
  · rename_i rows hrows
    cases h
    exact hrows

section Register

variable {t : PathwayTable} {d : PathwayDefinition} {state : PathwayState} {key : String}

/-- What a registration does: it raises, replays a row under its key, or inserts one. -/
theorem createOrReplayText_cases (py : Platform) (pathwayId : String) (text : Except StoreError (List Char))
    (state : PathwayState) (key : String) (t : PathwayTable) :
    (∃ e, t.createOrReplayText py pathwayId text state key = (.error e, t)) ∨
    (∃ row canonical, row ∈ t.rows ∧ row.idempotencyKey = key ∧ isBlank key = false ∧ row.pathwayId = pathwayId ∧
      text = .ok canonical ∧ row.definitionFingerprint = some (py.sha256 canonical) ∧
      t.createOrReplayText py pathwayId text state key = (.ok (true, row.state), t)) ∨
    ∃ canonical t', isBlank key = false ∧ text = .ok canonical ∧
      t.insert ⟨pathwayId, canonical, some (py.sha256 canonical), state, key⟩ = .ok t' ∧
      t.createOrReplayText py pathwayId text state key = (.ok (false, state), t') := by
  unfold createOrReplayText
  split_ifs with hblank
  · exact .inl ⟨_, rfl⟩
  · cases text with
    | error e => exact .inl ⟨e, rfl⟩
    | ok canonical =>
      dsimp only
      cases hrow : t.rows.find? fun row => row.idempotencyKey = key with
      | some row =>
        dsimp only
        split_ifs with hne
        · exact .inl ⟨_, rfl⟩
        · obtain ⟨hmem, hkey⟩ := (find?_eq_some_iff_of_nodup t.idempotencyKey_unique).mp hrow
          obtain ⟨hid, hfp⟩ := not_or.mp hne
          exact .inr (.inl ⟨row, canonical, hmem, hkey, by simpa using hblank, not_not.mp hid, rfl, not_not.mp hfp,
            rfl⟩)
      | none =>
        dsimp only
        cases hinsert : t.insert ⟨pathwayId, canonical, some (py.sha256 canonical), state, key⟩ with
        | error e => exact .inl ⟨e, rfl⟩
        | ok t' => exact .inr (.inr ⟨canonical, t', by simpa using hblank, rfl, hinsert, rfl⟩)

/-- What the registration of a definition does. -/
theorem createOrReplayPathway_cases (py : Platform) (jp : JsonPlatform) (d : PathwayDefinition) (state : PathwayState)
    (key : String) (t : PathwayTable) :
    (∃ e, t.createOrReplayPathway py jp d state key = (.error e, t)) ∨
    (∃ row canonical, row ∈ t.rows ∧ row.idempotencyKey = key ∧ isBlank key = false ∧ row.pathwayId = d.pathwayId ∧
      canonicalJson jp d.toDict = .ok canonical ∧ row.definitionFingerprint = some (py.sha256 canonical) ∧
      t.createOrReplayPathway py jp d state key = (.ok (true, row.state), t)) ∨
    ∃ canonical t', isBlank key = false ∧ canonicalJson jp d.toDict = .ok canonical ∧
      t.insert ⟨d.pathwayId, canonical, some (py.sha256 canonical), state, key⟩ = .ok t' ∧
      t.createOrReplayPathway py jp d state key = (.ok (false, state), t') :=
  createOrReplayText_cases py d.pathwayId (canonicalJson jp d.toDict) state key t

/-- A row with this key, pathway and fingerprint is replayed. -/
theorem createOrReplayText_replays {row : StoredRow} {canonical : List Char} (hrow : row ∈ t.rows)
    (hkey : row.idempotencyKey = key) (hblank : isBlank key = false)
    (hfp : row.definitionFingerprint = some (py.sha256 canonical)) :
    t.createOrReplayText py row.pathwayId (.ok canonical) state key = (.ok (true, row.state), t) := by
  have hfind := (find?_eq_some_iff_of_nodup t.idempotencyKey_unique).mpr ⟨hrow, hkey⟩
  simp only [createOrReplayText, hblank, hfind, hfp, Bool.false_eq_true, if_false, ne_eq, not_true_eq_false, or_self]

end Register

/-- **Every row the runtime leaves is a written one.** -/
theorem Reached.written {t : PathwayTable} (h : t.Reached py jp) : ∀ row ∈ t.rows, row.Written py jp := by
  induction h with
  | @opened t t' hrows h =>
    have hall := forall₂_backfillRows (backfillFingerprints_ok h)
    intro row' hrow'
    obtain ⟨row, hrow, hbackfill⟩ := exists_mem_of_forall₂ hall.flip hrow'
    rcases hrows row hrow with hearlier | ⟨hlegacy, hwritten⟩
    · exact hearlier.written hbackfill
    · rw [backfill_of_not_legacy hlegacy] at hbackfill
      exact Except.ok.inj hbackfill ▸ hwritten
  | @registered t d state key h hd ih =>
    rcases createOrReplayPathway_cases py jp d state key t with ⟨e, heq⟩ | ⟨row, c, -, -, -, -, -, -, heq⟩ |
      ⟨c, t', hblank, hcanonical, hinsert, heq⟩
    · rw [heq]
      exact ih
    · rw [heq]
      exact ih
    · rw [heq]
      intro row hrow
      rw [insert_ok hinsert] at hrow
      rcases List.mem_append.mp hrow with hrow | hrow
      · exact ih row hrow
      · obtain rfl := List.mem_singleton.mp hrow
        exact ⟨hblank, rfl, d.toDict, PathwayDefinition.toDict_uniqueKeys hd, hcanonical, d.get?_pathwayId⟩
  | moved pathwayId expected target h ih =>
    intro row' hrow'
    obtain ⟨row, hrow, rfl⟩ := List.mem_map.mp hrow'
    exact (ih row hrow).moveState pathwayId expected target

/-! ## Registration -/

section Keyed

variable {t : PathwayTable} {d : PathwayDefinition}

/-- The text of a definition determines its pathway. -/
theorem Written.pathwayId_eq {row : StoredRow} (hrow : row.Written py jp) (hd : (Json.obj d.metadata).UniqueKeys)
    (h : canonicalJson jp d.toDict = .ok row.definitionJson) : row.pathwayId = d.pathwayId := by
  obtain ⟨j, hj, hcanonical, hid⟩ := hrow.definition
  have hu := PathwayDefinition.toDict_uniqueKeys hd
  have hsort := Json.canonical_inj (canonicalJson_eq_ok.mp hcanonical).2 (canonicalJson_eq_ok.mp h).2 hj hu
  have hget := Json.map_get?_of_sortKeys hj hu hsort "pathway_id"
  rw [hid, d.get?_pathwayId] at hget
  exact PyText.utf8.inj (Json.str.inj (Option.some.inj hget))

/-- A registration replays exactly under the key of the same definition. -/
theorem replayed_iff (hsha : Function.Injective py.sha256) (ht : t.Reached py jp)
    (hd : (Json.obj d.metadata).UniqueKeys) (state st : PathwayState) (key : String) :
    (t.createOrReplayPathway py jp d state key).1 = .ok (true, st) ↔
      ∃ row ∈ t.rows, row.idempotencyKey = key ∧ row.state = st ∧
        canonicalJson jp d.toDict = .ok row.definitionJson := by
  constructor
  · intro h
    rcases createOrReplayPathway_cases py jp d state key t with ⟨e, heq⟩ |
      ⟨row, c, hrow, hkey, -, -, hcanonical, hfp, heq⟩ | ⟨c, t', -, -, -, heq⟩
    · rw [heq] at h
      cases h
    · rw [heq] at h
      have hwritten := ht.written row hrow
      rw [hwritten.fingerprint] at hfp
      rw [← hsha (Option.some.inj hfp)] at hcanonical
      exact ⟨row, hrow, hkey, (Prod.mk.inj (Except.ok.inj h)).2, hcanonical⟩
    · rw [heq] at h
      cases h
  · rintro ⟨row, hrow, hkey, rfl, hcanonical⟩
    have hwritten := ht.written row hrow
    rw [createOrReplayPathway, hcanonical, ← Written.pathwayId_eq hwritten hd hcanonical,
      createOrReplayText_replays hrow hkey (hkey ▸ hwritten.key) hwritten.fingerprint]

/-- A row with the text of a definition is read as that definition, up to the order of the members of its metadata. -/
theorem getDefinition_stored (hframes : jp.encoderFrames ≤ jp.scannerFrames) (hd : (Json.obj d.metadata).UniqueKeys)
    (hfloat : (Json.obj d.metadata).Leaves (Json.IsFloat jp)) {row : StoredRow} (hrow : row ∈ t.rows)
    (hid : row.pathwayId = d.pathwayId) (hcanonical : canonicalJson jp d.toDict = .ok row.definitionJson) :
    ∃ metadata, (Json.obj metadata).sortKeys = (Json.obj d.metadata).sortKeys ∧
      t.getDefinition py jp d.pathwayId = .ok { d with metadata } := by
  have hu := PathwayDefinition.toDict_uniqueKeys hd
  obtain ⟨hdepth, hc⟩ := canonicalJson_eq_ok.mp hcanonical
  have hfind := (find?_eq_some_iff_of_nodup t.pathwayId_unique).mpr ⟨hrow, hid⟩
  have hloads := Json.loads_canonical defaultHooks_keepsObjects hc hu
    (PathwayDefinition.toDict_leaves trivial (fun _ => trivial) (Json.leaves_imp Json.IsFloat.readsFloats _ hfloat))
    (hdepth.trans hframes)
  obtain ⟨metadata, hsort, hread⟩ := PathwayDefinition.fromDict_resorted py hd (loads_uniqueKeys hloads)
    (Json.sortKeys_sortKeys _)
  refine ⟨metadata, hsort, ?_⟩
  simp only [getDefinition, hfind, hloads, hread]
  rfl

end Keyed

end PathwayTable

/-- **Registration is keyed exactly by the definition**: it replays if and only if the pathway under the key has
this definition; otherwise it creates one row, from which the definition is read back, or raises and changes
nothing. -/
theorem register_keyed (hsha : Function.Injective py.sha256) (hframes : jp.encoderFrames ≤ jp.scannerFrames)
    {t : PathwayTable} (ht : t.Reached py jp) {d : PathwayDefinition} (hd : (Json.obj d.metadata).UniqueKeys)
    (hfloat : (Json.obj d.metadata).Leaves (Json.IsFloat jp)) (state : PathwayState) (key : String) :
    (∀ st, (t.createOrReplayPathway py jp d state key).1 = .ok (true, st) ↔
      ∃ row ∈ t.rows, row.idempotencyKey = key ∧ row.state = st ∧
        canonicalJson jp d.toDict = .ok row.definitionJson) ∧
    ((∃ st, t.createOrReplayPathway py jp d state key = (.ok (true, st), t)) ∨
      (∃ e, t.createOrReplayPathway py jp d state key = (.error e, t)) ∨
      ∃ row t', t.createOrReplayPathway py jp d state key = (.ok (false, state), t') ∧ t'.rows = t.rows ++ [row] ∧
        row.pathwayId = d.pathwayId ∧ row.idempotencyKey = key ∧ row.state = state ∧
        canonicalJson jp d.toDict = .ok row.definitionJson ∧
        ∃ metadata, (Json.obj metadata).sortKeys = (Json.obj d.metadata).sortKeys ∧
          t'.getDefinition py jp d.pathwayId = .ok { d with metadata }) := by
  refine ⟨fun st => PathwayTable.replayed_iff hsha ht hd state st key, ?_⟩
  rcases PathwayTable.createOrReplayPathway_cases py jp d state key t with ⟨e, heq⟩ | ⟨row, c, -, -, -, -, -, -, heq⟩ |
    ⟨c, t', -, hcanonical, hinsert, heq⟩
  · exact .inr (.inl ⟨e, heq⟩)
  · exact .inl ⟨row.state, heq⟩
  · have hrows := PathwayTable.insert_ok hinsert
    have hrow : ⟨d.pathwayId, c, some (py.sha256 c), state, key⟩ ∈ t'.rows :=
      hrows ▸ List.mem_append_right _ List.mem_cons_self
    exact .inr (.inr ⟨_, t', heq, hrows, rfl, rfl, rfl, hcanonical,
      PathwayTable.getDefinition_stored hframes hd hfloat hrow rfl hcanonical⟩)

/-! ## A pathway with a route -/

def routed : PathwayDefinition := { PathwayDefinition.sample (some "approver") with
  metadata := [("tags", .arr [.text "x"]), ("rate", .float oneFloat)]
  responsibilityRoute := some
    { routeClass := .holdForReconciliation
      sourceHolder := "owner"
      destination := "team"
      receiverEligibility := .eligible
      authorityClass := "delegated"
      delegationScope := "one write"
      unresolvedPayload := ["draft"]
      allowedNextActions := ["review"]
      closureCondition := "reviewed"
      reevaluationCondition := "team changes"
      residualOwner := "residual"
      expiresAt := none } }

/-- Its canonical text. -/
def routedText : List Char :=
  "\x7b\"action_class\":\"observe_only\",\"action_name\":\"write\",\"approval_authority\":\"approver\",".toList ++
    "\"decision_owner\":\"owner\",\"environment_trust\":\"trusted_internal\",".toList ++
    "\"evidence_owner\":\"auditor\",\"execution_actor\":\"executor\",\"human_return_point\":\"desk\",".toList ++
    "\"metadata\":\x7b\"rate\":1.0,\"tags\":[\"x\"]\x7d,\"pathway_id\":\"p\",".toList ++
    "\"repair_owner\":\"repairer\",\"residual_owner\":\"residual\",".toList ++
    "\"responsibility_route\":\x7b\"allowed_next_actions\":[\"review\"],".toList ++
    "\"authority_class\":\"delegated\",\"closure_condition\":\"reviewed\",".toList ++
    "\"delegation_scope\":\"one write\",\"destination\":\"team\",\"expires_at\":null,".toList ++
    "\"receiver_eligibility\":\"eligible\",\"reevaluation_condition\":\"team changes\",".toList ++
    "\"residual_owner\":\"residual\",\"route_class\":\"hold_for_reconciliation\",".toList ++
    "\"source_holder\":\"owner\",\"unresolved_payload\":[\"draft\"]\x7d,\"resume_authority\":\"resumer\",".toList ++
    "\"stop_authority\":\"stopper\"\x7d".toList

def routedPlatform : Platform :=
  .withDigests [(routedText, "7b354590c86c62e14dbdc8b63a053dd2c797d9b54186237ea16accf5b7c71a8d")]

theorem canonicalJson_routed : canonicalJson .sample routed.toDict = .ok routedText := by
  decide +kernel

theorem register_keyed_routed : ∃ t metadata,
    PathwayTable.empty.createOrReplayPathway routedPlatform .sample routed .proposed "key" =
      (.ok (false, .proposed), t) ∧
    (Json.obj metadata).sortKeys = (Json.obj routed.metadata).sortKeys ∧
    t.getDefinition routedPlatform .sample "p" = .ok { routed with metadata } := by
  have hsha : Function.Injective routedPlatform.sha256 :=
    Platform.withDigests_injective (by simp) fun p hp => by
      rw [List.mem_singleton.mp hp]
      decide
  have hd : (Json.obj routed.metadata).UniqueKeys := ⟨by decide, ⟨trivial, trivial⟩, trivial, trivial⟩
  have hfloat : (Json.obj routed.metadata).Leaves (Json.IsFloat .sample) :=
    ⟨trivial, ⟨trivial, trivial⟩, trivial, rfl, trivial⟩
  have hreached : PathwayTable.empty.Reached routedPlatform .sample :=
    .opened (t := .empty) (fun _ h => (List.not_mem_nil h).elim) rfl
  have hcreated : (PathwayTable.empty.createOrReplayPathway routedPlatform .sample routed .proposed "key").1 =
      .ok (false, .proposed) := by
    simp only [PathwayTable.createOrReplayPathway, PathwayTable.createOrReplayText, canonicalJson_routed]
    rfl
  obtain ⟨-, ⟨st, h⟩ | ⟨e, h⟩ | ⟨row, t, h, -, -, -, -, -, metadata, hsort, hread⟩⟩ :=
    register_keyed hsha (Nat.le_refl _) hreached hd hfloat .proposed "key"
  · rw [h] at hcreated
    cases hcreated
  · rw [h] at hcreated
    cases hcreated
  · exact ⟨t, metadata, h, hsort, hread⟩

end Rpr
