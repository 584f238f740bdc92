import PathwayRuntime.Log.Column
import PathwayRuntime.Model.ReadModel
import PathwayRuntime.Python.Spaced
import PathwayRuntime.Trace.Grown

/-!
# What the read model shows

* `requiredId_ok`, `validatedLimit_ok`: the arguments that are accepted; `getEvidence_ok`: one page.
* **`interleaved_page_kept`**: what a page of evidence shows, every later page shows too.
* **`interleaved_page_valid`**: a page is the beginning of a log, numbered in order, and a valid chain of its own.
* `exists_lastStep`: the row of a pathway was written by some step.
* **`listUnresolved_oldest`**: who is listed as unresolved, and who is left out.
* **`interleaved_visible_iff`**: which registered pathways can be inspected, and what is shown of them.
-/

set_option autoImplicit false

namespace Rpr

open Resume

namespace SQLiteReadModel

open ReadOnlyRprMcpServer

/-! ## Arguments -/

theorem requiredId_ok {value : Json} {p : String} :
    requiredId value = .ok p ↔ value = .text p ∧ strip p = p ∧ p ≠ "" := by
  cases value with
  | str s =>
    cases s with
    | utf8 s =>
      have hguard : ((PyText.utf8 (strip s)).length = 0 ∨ PyText.utf8 s ≠ PyText.utf8 (strip s)) ↔
          ¬ (strip s = s ∧ s ≠ "") := by
        have hlength : (PyText.utf8 (strip s)).length = 0 ↔ strip s = "" := by
          rw [PyText.length, String.length_eq_zero_iff]
        rw [hlength, Ne, PyText.utf8.injEq]
        by_cases hs : strip s = s
        · simp [hs]
        · simp [hs, Ne.symm hs]
      rw [requiredId, PyText.strip]
      by_cases hs : strip s = s ∧ s ≠ ""
      · rw [if_neg (not_not.mpr hs ∘ hguard.mp)]
        constructor
        · intro h
          obtain rfl := Except.ok.inj h
          exact ⟨rfl, hs⟩
        · rintro ⟨heq, -⟩
          rw [PyText.utf8.inj (Json.str.inj heq)]
      · rw [if_pos (hguard.mpr hs)]
        refine iff_of_false (fun h => by cases h) ?_
        rintro ⟨heq, hp⟩
        rw [← PyText.utf8.inj (Json.str.inj heq)] at hp
        exact hs hp
    | lone codes h =>
      rw [requiredId]
      refine iff_of_false (fun h => ?_) fun h => by cases h.1
      split_ifs at h
  | _ => exact iff_of_false (fun h => by cases h) fun h => by cases h.1

theorem validatedLimit_ok {maximum n : ℤ} {limit : ℕ} :
    validatedLimit (.int n) maximum = .ok limit ↔ 1 ≤ n ∧ n ≤ maximum ∧ limit = n.toNat := by
  rw [validatedLimit]
  split_ifs with h
  · refine iff_of_false (fun h => by cases h) ?_
    rintro ⟨hpos, hle, -⟩
    omega
  · constructor
    · intro hok
      obtain rfl := Except.ok.inj hok
      exact ⟨by omega, by omega, rfl⟩
    · rintro ⟨-, -, rfl⟩
      rfl

/-! ## Pages of evidence -/

section Pages

variable {db db' : ReadOnlyDatabase} {codec : JsonCodec} {id : Json} {n : ℤ} {page : List Json}

/-- **One page**: the first rows of a pathway that exists. -/
theorem getEvidence_ok : getEvidence db codec id (.int n) = .ok (.arr page) ↔ ∃ p, requiredId id = .ok p ∧ 1 ≤ n ∧
    n ≤ 5000 ∧ (db.world.state p).isSome ∧ page = ((db.world.numberedLog p).take n.toNat).map (eventRow codec) := by
  rw [getEvidence, except_bind_eq_ok]
  refine exists_congr fun p => and_congr_right fun _ => ?_
  rw [except_bind_eq_ok]
  constructor
  · rintro ⟨limit, hlimit, h⟩
    obtain ⟨hpos, hle, rfl⟩ := validatedLimit_ok.mp hlimit
    split_ifs at h with hstate
    exact ⟨hpos, hle, Option.isSome_iff_ne_none.mpr (by simpa using hstate), (Json.arr.inj (Except.ok.inj h)).symm⟩
  · rintro ⟨hpos, hle, hstate, rfl⟩
    refine ⟨n.toNat, validatedLimit_ok.mpr ⟨hpos, hle, rfl⟩, ?_⟩
    rw [if_neg (by simp [Option.isSome_iff_ne_none.mp hstate])]
    rfl

/-- Rows are numbered once and for all. -/
theorem World.Grows.numberedLog {w w' : World} (h : w.Grows w') (p : String) :
    w.numberedLog p <+: w'.numberedLog p := by
  obtain ⟨newer, hnewer⟩ := h.events
  refine List.IsPrefix.filter _ ?_
  rw [World.numbered, World.numbered, ← hnewer, List.reverse_append, List.zipIdx_append]
  exact List.prefix_append _ _

/-- The rows of a pathway are its events, oldest first. -/
theorem numberedLog_events (w : World) (p : String) : (w.numberedLog p).map Prod.fst = (w.log p).reverse := by
  have hfilter : (w.numbered.map Prod.fst).filter (fun e => e.pathwayId = p) =
      (w.numberedLog p).map Prod.fst := List.filter_map
  rw [← hfilter, World.numbered, List.zipIdx_map_fst, World.log, List.filter_reverse]

theorem numberedLog_sorted (w : World) (p : String) : ((w.numberedLog p).map Prod.snd).Pairwise (· < ·) := by
  have hall : (w.numbered.map Prod.snd).Pairwise (· < ·) := by
    rw [World.numbered, List.zipIdx_map_snd]
    exact List.pairwise_lt_range' _
  exact hall.sublist (List.filter_sublist.map _)

/-- The beginning of a chain is a chain. -/
theorem linked_drop {log : List EvidenceEvent} (h : Linked log) (k : ℕ) : Linked (log.drop k) := by
  rw [linked_iff] at h ⊢
  intro newer e older heq
  refine h (log.take k ++ newer) e older ?_
  rw [List.append_assoc, ← heq, List.take_append_drop]

end Pages

end SQLiteReadModel

open SQLiteReadModel

/-! ## Unresolved pathways -/

namespace SQLiteReadModel

section Unresolved

variable (db : ReadOnlyDatabase)

theorem mem_unresolved {row : Sigma fun _ : String => PathwayRow} : row ∈ unresolved db ↔
    db.world.pathways.lookup row.1 = some row.2 ∧ allowedTransitions row.2.state ≠ [] := by
  rw [unresolved, List.mem_filter, AList.mem_lookup_iff.symm, Option.mem_def]
  refine and_congr_right fun _ => ?_
  generalize row.2.state = s
  cases s <;> decide

theorem textLe_iff {a b : String} : textLe a b = true ↔ (PyText.utf8 a).codes ≤ (PyText.utf8 b).codes :=
  PyText.le_iff _ _

theorem textLe_trans {a b c : String} (hab : textLe a b = true) (hbc : textLe b c = true) : textLe a c = true :=
  textLe_iff.mpr ((textLe_iff.mp hab).trans (textLe_iff.mp hbc))

theorem textLe_total (a b : String) : textLe a b = true ∨ textLe b a = true := by
  rw [textLe_iff, textLe_iff]
  exact le_total _ _

theorem Before.total (column : String → String) (p q : String) : Before column p q ∨ Before column q p := by
  by_cases hpq : textLe (column p) (column q) = true
  · by_cases hqp : textLe (column q) (column p) = true
    · exact (textLe_total p q).imp (fun h => ⟨hpq, fun _ => h⟩) fun h => ⟨hqp, fun _ => h⟩
    · exact .inl ⟨hpq, fun h => absurd h hqp⟩
  · exact .inr ⟨(textLe_total _ _).resolve_left hpq, fun h => absurd h hpq⟩

theorem Before.trans {column : String → String} {p q r : String} (hpq : Before column p q)
    (hqr : Before column q r) : Before column p r :=
  ⟨textLe_trans hpq.1 hqr.1, fun h => textLe_trans (hpq.2 (textLe_trans hqr.1 h)) (hqr.2 (textLe_trans h hpq.1))⟩

theorem orderedBy_pairwise (column : String → String) (rows : List (Sigma fun _ : String => PathwayRow)) :
    (orderedBy column rows).Pairwise fun a b => Before column a.1 b.1 := by
  let r : (Sigma fun _ : String => PathwayRow) → (Sigma fun _ : String => PathwayRow) → Prop := fun a b =>
    Before column a.1 b.1
  have : Std.Total r := ⟨fun a b => Before.total column a.1 b.1⟩
  have : IsTrans _ r := ⟨fun _ _ _ => Before.trans⟩
  exact List.pairwise_insertionSort r rows

/-- What is shown of rows tells which pathways they are of. -/
theorem ids_of_pathwayRow {rows rows' : List (Sigma fun _ : String => PathwayRow)}
    (h : rows.map (pathwayRow db) = rows'.map (pathwayRow db)) : rows.map Sigma.fst = rows'.map Sigma.fst := by
  have hids : ∀ rows : List (Sigma fun _ : String => PathwayRow),
      (rows.map (pathwayRow db)).map (·.get? "pathway_id") = (rows.map Sigma.fst).map (some ∘ Json.text) := by
    intro rows
    rw [List.map_map, List.map_map]
    rfl
  have hsame := congrArg (List.map (·.get? "pathway_id")) h
  rw [hids, hids] at hsame
  have hinj : Function.Injective (some ∘ Json.text) := fun a b h => PyText.utf8.inj (Json.str.inj (Option.some.inj h))
  exact hinj.list_map hsame

/-- The rows that are listed. -/
theorem listUnresolved_ok {n : ℤ} {page : List Json} : listUnresolved db (.int n) = .ok (.arr page) ↔ 1 ≤ n ∧
    n ≤ 1000 ∧ page = ((orderedBy db.updatedAt (unresolved db)).take n.toNat).map (pathwayRow db) := by
  rw [listUnresolved, except_bind_eq_ok]
  constructor
  · rintro ⟨limit, hlimit, hok⟩
    obtain ⟨hpos, hle, rfl⟩ := validatedLimit_ok.mp hlimit
    exact ⟨hpos, hle, (Json.arr.inj (Except.ok.inj hok)).symm⟩
  · rintro ⟨hpos, hle, rfl⟩
    exact ⟨n.toNat, validatedLimit_ok.mpr ⟨hpos, hle, rfl⟩, rfl⟩

theorem textLe_antisymm {a b : String} (hab : textLe a b = true) (hba : textLe b a = true) : a = b :=
  PyText.utf8.inj (PyText.codes_injective (le_antisymm (textLe_iff.mp hab) (textLe_iff.mp hba)))

section Dates

variable {py : Platform} {order : Option RowOrder} {p q : String}

/-- A step leaves the rows it does not write. -/
theorem Step.lookup_of_not_writesRow {s : Step} (w : World) (h : s.writesRow ≠ some p) :
    (s.effect w).pathways.lookup p = w.pathways.lookup p := by
  cases s
  case createOrReplayPathway d fp st key r =>
    rcases r with err | ⟨_ | _, st'⟩
    · rfl
    · exact AList.lookup_insert_ne fun hp => h (congrArg some hp.symm)
    · rfl
  case transitionWithEvent q cur target e r =>
    rcases r with err | ⟨⟩
    · rfl
    · exact (World.lookup_setState w q p target).trans (if_neg fun hp => h (congrArg some hp.symm))
  case appendEvent event r => rcases r with err | ⟨⟩ <;> rfl
  case begin q r fp res => rcases res with err | ⟨_ | _, rec⟩ <;> rfl
  all_goals rfl

/-- The row of a pathway was written by some step. -/
theorem exists_lastStep {tr : List Record} {w : World} (h : Reach py order tr w)
    (hrow : (w.pathways.lookup p).isSome) : ∃ i, lastStep Step.writesRow p tr = some i := by
  induction h using Reach.induct with
  | start => cases hrow
  | step t c s tr w h ih _ _ _ =>
    by_cases hs : s.writesRow = some p
    · exact ⟨tr.length, if_pos hs⟩
    · rw [Step.lookup_of_not_writesRow w hs] at hrow
      obtain ⟨i, hi⟩ := ih hrow
      exact ⟨i, (if_neg hs).trans hi⟩

/-- By a clock that is never set back, the dates of rows are in the order of the steps that wrote them. -/
theorem Before.lastStep {clock : ℕ → String} (hclock : ∀ i j, i ≤ j → textLe (clock i) (clock j) = true)
    {schemaVersion : Option ℤ} {h : History} (hreach : Reach py order h.trace h.world)
    (hp : (h.world.pathways.lookup p).isSome) (hq : (h.world.pathways.lookup q).isSome)
    (hbefore : Before (ReadOnlyDatabase.ofHistory clock schemaVersion h).updatedAt q p) :
    ∃ i j, Rpr.lastStep Step.writesRow q h.trace = some i ∧ Rpr.lastStep Step.writesRow p h.trace = some j ∧
      (i ≤ j ∨ clock i = clock j) := by
  obtain ⟨i, hi⟩ := exists_lastStep hreach hq
  obtain ⟨j, hj⟩ := exists_lastStep hreach hp
  have hle : textLe (clock i) (clock j) = true := by
    simpa [ReadOnlyDatabase.ofHistory, hi, hj] using hbefore.1
  refine ⟨i, j, hi, hj, or_iff_not_imp_left.mpr fun hij => ?_⟩
  exact textLe_antisymm hle (hclock j i (Nat.le_of_not_le hij))

end Dates

/-- **Who is listed as unresolved**: pathways from which a transition is allowed, each of them at most once, the ones
that were updated least recently, and no more than were asked for. One that is left out was updated no earlier than any
that is listed, and none is left out where `status` counts no more than were asked for. After any interleaving of calls,
by a clock that is never set back, that means: the last step that wrote the row of one that is left out came no earlier
than that of one that is listed, or at the same time. -/
theorem listUnresolved_oldest (codec : JsonCodec) (n : ℤ) (page : List Json)
    (hpage : (db.readModel codec).listUnresolved (.int n) = .ok (.arr page)) :
    ∃ listed : List (Sigma fun _ : String => PathwayRow), page = listed.map (pathwayRow db) ∧
      (listed.map Sigma.fst).Nodup ∧ (listed.length : ℤ) = min n (unresolved db).length ∧
      (∀ row ∈ listed, db.world.pathways.lookup row.1 = some row.2 ∧ allowedTransitions row.2.state ≠ []) ∧
      ∀ p row, db.world.pathways.lookup p = some row → allowedTransitions row.state ≠ [] → ⟨p, row⟩ ∉ listed →
        (∀ other ∈ listed, Before db.updatedAt other.1 p) ∧ n < (unresolved db).length ∧
        ∀ (py : Platform) (order : Option RowOrder) (calls : List (Call × List Oracle))
          (acts : List (Machine.Action Call Oracle)) (clock : ℕ → String),
          db = .ofHistory clock db.schemaVersion (interleaved py order calls acts) →
          (∀ i j, i ≤ j → textLe (clock i) (clock j) = true) → ∀ other ∈ listed,
          ∃ i j, lastStep Step.writesRow other.1 (interleaved py order calls acts).trace = some i ∧
            lastStep Step.writesRow p (interleaved py order calls acts).trace = some j ∧
            (i ≤ j ∨ clock i = clock j) := by
  obtain ⟨hpos, -, rfl⟩ := (listUnresolved_ok db).mp hpage
  let all := orderedBy db.updatedAt (unresolved db)
  have hperm : all.Perm (unresolved db) := List.perm_insertionSort _ _
  have hlength : all.length = (unresolved db).length := hperm.length_eq
  have hnodup : (all.map Sigma.fst).Nodup := by
    refine (hperm.map Sigma.fst).nodup_iff.mpr ?_
    exact List.Nodup.sublist (List.filter_sublist.map _) db.world.pathways.nodupKeys
  have hstored : ∀ row ∈ all.take n.toNat, db.world.pathways.lookup row.1 = some row.2 ∧
      allowedTransitions row.2.state ≠ [] := fun row hrow =>
    (mem_unresolved db).mp (hperm.mem_iff.mp (List.mem_of_mem_take hrow))
  refine ⟨all.take n.toNat, rfl, ?_, ?_, hstored, ?_⟩
  · exact hnodup.sublist ((List.take_sublist _ _).map _)
  · rw [List.length_take, hlength]
    omega
  · intro p row hrow hopen hnot
    have hmem : (⟨p, row⟩ : Sigma fun _ : String => PathwayRow) ∈ all :=
      hperm.mem_iff.mpr ((mem_unresolved db).mpr ⟨hrow, hopen⟩)
    have hdrop : (⟨p, row⟩ : Sigma fun _ : String => PathwayRow) ∈ all.drop n.toNat := by
      rw [← List.take_append_drop n.toNat all] at hmem
      exact (List.mem_append.mp hmem).resolve_left hnot
    have hbefore : ∀ other ∈ all.take n.toNat, Before db.updatedAt other.1 p := by
      have hpairwise := orderedBy_pairwise db.updatedAt (unresolved db)
      rw [← List.take_append_drop n.toNat (orderedBy db.updatedAt (unresolved db))] at hpairwise
      exact fun other hother => (List.pairwise_append.mp hpairwise).2.2 other hother _ hdrop
    refine ⟨hbefore, ?_, fun py order calls acts clock hdb hclock other hother => ?_⟩
    · have hpositive := List.length_pos_of_mem hdrop
      rw [List.length_drop, hlength] at hpositive
      omega
    · have hp : (db.world.pathways.lookup p).isSome := hrow ▸ rfl
      have hother' : (db.world.pathways.lookup other.1).isSome := (hstored other hother).1 ▸ rfl
      have hless := hbefore other hother
      rw [hdb] at hp hother' hless
      exact Before.lastStep hclock (interleaved_reach py order calls acts) hp hother' hless

/-- Two pathways are registered, and then the first of them is approved. -/
def twoCalls : List (Call × List Oracle) :=
  [(Method.register (.sample (some "approver")) "reg").answered {},
    (Method.register { PathwayDefinition.sample none with pathwayId := "q" } "reg-q").answered {},
    (Method.transition "p" .approved "approver" "ok").answered {}]

/-- The approval comes a day later. -/
def twoDays (i : ℕ) : String := if i < 10 then "2026-01-01 00:00:00" else "2026-01-02 00:00:00"

theorem twoDays_mono (i j : ℕ) (h : i ≤ j) : textLe (twoDays i) (twoDays j) = true := by
  unfold twoDays
  split_ifs with hi hj
  · decide
  · decide
  · omega
  · decide

def twoOpen : ReadOnlyDatabase := .ofHistory twoDays (some 2) (interleaved .sample none twoCalls [])

theorem listUnresolved_oldest_two : ∃ i j,
    lastStep Step.writesRow "q" (interleaved .sample none twoCalls []).trace = some i ∧
      lastStep Step.writesRow "p" (interleaved .sample none twoCalls []).trace = some j ∧
      (i ≤ j ∨ twoDays i = twoDays j) := by
  have hall : (orderedBy twoOpen.updatedAt (unresolved twoOpen)).map Sigma.fst = ["q", "p"] := by decide +kernel
  obtain ⟨listed, hpage, -, -, -, hleft⟩ := listUnresolved_oldest twoOpen .spaced 1 _
    ((listUnresolved_ok twoOpen).mpr ⟨by decide, by decide, rfl⟩)
  have hlisted : listed.map Sigma.fst = ["q"] := by
    rw [← ids_of_pathwayRow twoOpen hpage, List.map_take, hall]
    rfl
  obtain ⟨⟨p, row⟩, hmem, rfl⟩ : ∃ row ∈ orderedBy twoOpen.updatedAt (unresolved twoOpen), row.1 = "p" :=
    List.mem_map.mp (hall ▸ by simp)
  obtain ⟨hrow, hopen⟩ := (mem_unresolved twoOpen).mp ((List.perm_insertionSort _ _).mem_iff.mp hmem)
  have hnot : (⟨"p", row⟩ : Sigma fun _ : String => PathwayRow) ∉ listed := fun hmem => by
    have hp : "p" ∈ listed.map Sigma.fst := List.mem_map.mpr ⟨_, hmem, rfl⟩
    rw [hlisted] at hp
    exact absurd hp (by decide)
  obtain ⟨other, hother, hq⟩ := List.mem_map.mp (hlisted ▸ List.mem_singleton_self "q")
  have hlast := (hleft _ row hrow hopen hnot).2.2 .sample none twoCalls [] twoDays rfl twoDays_mono
    other hother
  rwa [hq] at hlast

end Unresolved

end SQLiteReadModel

/-- **What a page shows stays.** In every interleaving of calls, with crashes, and however it goes on: a page of the
evidence of a pathway is the beginning of every later page that is as long, with the same numbers, hashes and events,
and the later page can be read. -/
theorem interleaved_page_kept (py : Platform) (order : Option RowOrder) (calls : List (Call × List Oracle))
    (acts more : List (Machine.Action Call Oracle)) (codec : JsonCodec) (db db' : ReadOnlyDatabase)
    (hdb : db.world = (interleaved py order calls acts).world)
    (hdb' : db'.world = (interleaved py order calls (acts ++ more)).world) (id : Json) (n n' : ℤ) (page : List Json)
    (hpage : (db.readModel codec).getEvidence id (.int n) = .ok (.arr page)) (hle : n ≤ n') (hmax : n' ≤ 5000) :
    ∃ page', (db'.readModel codec).getEvidence id (.int n') = .ok (.arr page') ∧ page <+: page' := by
  have hgrows : db.world.Grows db'.world := by
    obtain ⟨new, hnew⟩ := interleaved_append py order calls acts more
    have hreach := interleaved_reach py order calls (acts ++ more)
    rw [hnew] at hreach
    rw [hdb, hdb']
    exact (interleaved_reach py order calls acts).grows hreach
  obtain ⟨p, hid, hpos, -, hstate, rfl⟩ := getEvidence_ok.mp hpage
  have hstate' : (db'.world.state p).isSome := by
    obtain ⟨row, hrow, -⟩ := Option.map_eq_some_iff.mp (Option.isSome_iff_exists.mp hstate).choose_spec
    obtain ⟨s, hs, -⟩ := hgrows.pathways p row hrow
    rw [World.state, hs]
    rfl
  refine ⟨_, getEvidence_ok.mpr ⟨p, hid, by omega, hmax, hstate', rfl⟩, ?_⟩
  refine List.IsPrefix.map _ (List.prefix_take_iff.mpr ⟨?_, ?_⟩)
  · exact (List.take_prefix _ _).trans (World.Grows.numberedLog hgrows p)
  · rw [List.length_take]
    omega

/-- The database after some calls, all of them made at once. -/
def inspected (calls : List (Call × List Oracle)) (acts : List (Machine.Action Call Oracle)) : ReadOnlyDatabase :=
  .ofHistory (fun _ => "2026-01-01 00:00:00") (some 2) (interleaved .sample none calls acts)

theorem inspected_approval : ((inspected approvalCalls []).world.state "p") = some .approved := by
  decide +kernel

theorem inspected_world (calls : List (Call × List Oracle)) (acts : List (Machine.Action Call Oracle)) :
    (inspected calls acts).world = (interleaved .sample none calls acts).world := rfl

/-- The rows of a registered pathway. -/
def approvalRows (n : ℕ) : List (EvidenceEvent × ℕ) := ((inspected approvalCalls []).world.numberedLog "p").take n

theorem evidence_approval {n : ℕ} (hpos : 1 ≤ n) (hle : n ≤ 5000) :
    ((inspected approvalCalls []).readModel .spaced).getEvidence (.text "p") (.int n) =
      .ok (.arr ((approvalRows n).map (eventRow .spaced))) := by
  refine getEvidence_ok.mpr ⟨"p", requiredId_ok.mpr ⟨rfl, by decide, by decide⟩, by omega, by omega, ?_, rfl⟩
  rw [inspected_approval]
  rfl

/-- The first event of a pathway that was registered before others interleave. -/
theorem interleaved_page_kept_approval : ∃ page',
    ((inspected approvalCalls ([] ++ raceOnTheHash)).readModel .spaced).getEvidence (.text "p") (.int 2) =
        .ok (.arr page') ∧ (approvalRows 1).map (eventRow .spaced) <+: page' :=
  interleaved_page_kept .sample none approvalCalls [] raceOnTheHash .spaced (inspected approvalCalls [])
    (inspected approvalCalls ([] ++ raceOnTheHash)) (inspected_world _ _) (inspected_world _ _) (.text "p") (1 : ℕ) 2 _
    (evidence_approval (by decide) (by decide)) (by decide) (by decide)

/-- **A page is a valid chain.** In every interleaving whose insertions are undisturbed, a page of the evidence of a
pathway shows the first events of its log, in ascending order of their numbers, and `verify_chain` accepts its events as
they are shown. -/
theorem interleaved_page_valid (py : Platform) (order : Option RowOrder) (calls : List (Call × List Oracle))
    (acts : List (Machine.Action Call Oracle)) (hun : Undisturbed (interleaved py order calls acts).trace)
    (codec : JsonCodec) (db : ReadOnlyDatabase) (hdb : db.world = (interleaved py order calls acts).world) (id : Json)
    (n : ℤ) (page : List Json) (hpage : (db.readModel codec).getEvidence id (.int n) = .ok (.arr page)) :
    ∃ (p : String) (rows : List (EvidenceEvent × ℕ)), id = .text p ∧ page = rows.map (eventRow codec) ∧
      rows.map Prod.fst = (db.world.log p).reverse.take n.toNat ∧ (rows.map Prod.snd).Pairwise (· < ·) ∧
      ∃ index reason, verifyChainDicts py (page.filterMap (·.get? "event")) = .ok (true, index, reason) := by
  obtain ⟨p, hid, -, -, -, rfl⟩ := getEvidence_ok.mp hpage
  have hevents : ((db.world.numberedLog p).take n.toNat).map Prod.fst = (db.world.log p).reverse.take n.toNat := by
    rw [List.map_take, numberedLog_events]
  refine ⟨p, _, (requiredId_ok.mp hid).1, rfl, hevents, ?_, ?_⟩
  · exact (numberedLog_sorted db.world p).sublist ((List.take_sublist _ _).map _)
  have hreach := interleaved_reach py order calls acts
  rw [← hdb] at hreach
  obtain ⟨hlinked, hverify⟩ := linked_of_reach (p := p) hreach hun
  have hpayload := payload_of_reach (p := p) hreach
  have hshown : (((db.world.numberedLog p).take n.toNat).map (eventRow codec)).filterMap (·.get? "event") =
      ((db.world.log p).reverse.take n.toNat).map codec.readBack := by
    rw [← hevents, List.filterMap_map, List.map_map, ← List.filterMap_eq_map]
    rfl
  have hmem : ∀ e ∈ (db.world.log p).reverse.take n.toNat, e ∈ db.world.log p := fun e he =>
    List.mem_reverse.mp (List.mem_of_mem_take he)
  have hvalid : (verifyChain py ((db.world.log p).reverse.take n.toNat)).1 = true := by
    rw [List.take_reverse]
    exact verifyChain_valid.mpr ⟨fun e he => hverify e (List.mem_of_mem_drop he), linked_drop hlinked _⟩
  rw [hshown, verifyChainDicts_readBack codec (fun e he => hpayload e (hmem e he)) fun e he => hverify e (hmem e he)]
  exact ⟨_, _, congrArg Except.ok (Prod.ext hvalid rfl)⟩

/-- The two events of a registered pathway. -/
theorem interleaved_page_valid_approval : ∃ (p : String) (rows : List (EvidenceEvent × ℕ)), Json.text "p" = .text p ∧
    (approvalRows 2).map (eventRow .spaced) = rows.map (eventRow .spaced) ∧
      rows.map Prod.fst = ((inspected approvalCalls []).world.log p).reverse.take (2 : ℤ).toNat ∧
      (rows.map Prod.snd).Pairwise (· < ·) ∧ ∃ index reason, verifyChainDicts .sample
        (((approvalRows 2).map (eventRow .spaced)).filterMap (·.get? "event")) = .ok (true, index, reason) := by
  obtain ⟨hreach, hserial, -⟩ := sequential_reach .sample none approvalCalls
  refine interleaved_page_valid .sample none approvalCalls [] ?_ .spaced (inspected approvalCalls [])
    (inspected_world _ _) (.text "p") (2 : ℕ) _ (evidence_approval (by decide) (by decide))
  rw [interleaved_nil]
  exact undisturbed_of_serial hreach hserial

/-! ## Routes -/

/-- What is shown of the route of a pathway. -/
def routeView (p : String) (s : PathwayState) (d : PathwayDefinition) : Json :=
  .obj [("pathway_id", .text p), ("state", .text s.value),
    ("compatibility_route", .optText ((compatibilityRouteForState s).map ResponsibilityRouteClass.value)),
    ("declared_route", (d.responsibilityRoute.map ResponsibilityRoute.toDict).getD .null),
    ("human_return_point", .text d.humanReturnPoint), ("residual_owner", .text d.residualOwner),
    ("authority_inferred", .bool false)]

/-- A definition that was written can be shown. -/
theorem buildRouteVisibility_toDict (p : String) (s : PathwayState) (d : PathwayDefinition) :
    (buildRouteVisibility s d.toDict).map (fun visible => Json.obj ((PyText.utf8 "pathway_id", .text p) :: visible)) =
      .ok (routeView p s d) := by
  rw [PathwayDefinition.toDict, routeView]
  cases d.responsibilityRoute with
  | none => rfl
  | some r => rfl

/-- **Which registered pathways can be inspected.** In every interleaving, the route of a registered pathway is shown
exactly when its identifier is trimmed and not empty, and what is shown is what its definition declares, with the
compatibility route of its state and no authority. -/
theorem interleaved_visible_iff (py : Platform) (order : Option RowOrder) (calls : List (Call × List Oracle))
    (acts : List (Machine.Action Call Oracle)) (codec : JsonCodec) (db : ReadOnlyDatabase)
    (hdb : db.world = (interleaved py order calls acts).world) (p : String) (s : PathwayState) (d : PathwayDefinition)
    (hstate : db.world.state p = some s) (hdef : db.world.getDefinition py p = .ok d) (view : Json) :
    (db.readModel codec).getRouteVisibility (.text p) = .ok view ↔ (strip p = p ∧ p ≠ "") ∧ view = routeView p s d := by
  have hreach := interleaved_reach py order calls acts
  rw [← hdb] at hreach
  obtain ⟨row, hrow, rfl⟩ := Option.map_eq_some_iff.mp hstate
  have hjson : row.definitionJson = d.toDict := by
    obtain ⟨row', hrow', hjson⟩ := Option.map_eq_some_iff.mp ((getDefinition_stored hreach).mp hdef)
    rw [hrow] at hrow'
    rw [← hjson, Option.some.inj hrow']
  have hfind : ∀ found, findPathway db (.text p) = .ok found ↔ (strip p = p ∧ p ≠ "") ∧ found = ⟨p, row⟩ := by
    intro found
    rw [findPathway, except_bind_eq_ok]
    constructor
    · rintro ⟨p', hid, h⟩
      obtain ⟨heq, htidy⟩ := requiredId_ok.mp hid
      obtain rfl := PyText.utf8.inj (Json.str.inj heq)
      rw [hrow] at h
      exact ⟨htidy, (Except.ok.inj h).symm⟩
    · rintro ⟨htidy, rfl⟩
      exact ⟨p, requiredId_ok.mpr ⟨rfl, htidy⟩, by rw [hrow]; rfl⟩
  have hview := buildRouteVisibility_toDict p row.state d
  cases hvisible : buildRouteVisibility row.state d.toDict with
  | error e => rw [hvisible] at hview; cases hview
  | ok visible =>
    rw [hvisible] at hview
    have hshown : Json.obj ((PyText.utf8 "pathway_id", Json.text p) :: visible) = routeView p row.state d :=
      Except.ok.inj hview
    change getRouteVisibility db (.text p) = .ok view ↔ _
    rw [getRouteVisibility, except_bind_eq_ok]
    constructor
    · rintro ⟨found, hfound, h⟩
      obtain ⟨htidy, rfl⟩ := (hfind found).mp hfound
      rw [hjson, hvisible] at h
      exact ⟨htidy, (Except.ok.inj h).symm.trans hshown⟩
    · rintro ⟨htidy, rfl⟩
      refine ⟨_, (hfind _).mpr ⟨htidy, rfl⟩, ?_⟩
      rw [hjson, hvisible, ← hshown]
      rfl

/-- The route of a pathway that declares none. -/
theorem interleaved_visible_approval :
    ((inspected approvalCalls []).readModel .spaced).getRouteVisibility (.text "p") =
      .ok (routeView "p" .approved (.sample (some "approver"))) := by
  have hworld : (inspected approvalCalls []).world = (sequential .sample none approvalCalls).world := by
    rw [inspected_world, interleaved_nil]
  have hstate := inspected_approval
  have hd : (inspected approvalCalls []).world.getDefinition .sample "p" = .ok (.sample (some "approver")) := by
    rw [hworld] at hstate ⊢
    refine getDefinition_submitted (d := .sample (some "approver")) ?_ (Option.isSome_iff_exists.mpr ⟨_, hstate⟩)
    simp +contextual [approvalCalls, Method.answered, eq_comm]
  exact (interleaved_visible_iff .sample none approvalCalls [] .spaced (inspected approvalCalls [])
    (inspected_world _ _) "p" .approved (.sample (some "approver")) inspected_approval hd _).mpr ⟨⟨rfl, by decide⟩, rfl⟩

end Rpr
