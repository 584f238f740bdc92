import PathwayRuntime.Parity.Lines
import PathwayRuntime.Parity.PlainTokens
import PathwayRuntime.Python.Canonical
import PathwayRuntime.Stdio.Json

/-!
# What a reported match says about the state file

* `StateFile.Means`: the function of the file is true on exactly the transitions of the runtime table.
* `CheckSound`, `SpecSound`: a match that is reported says so.
* `Shown`: the lines that name transitions are what the clauses decide.
* **`consistency_iff`**: the checks are sound on the files whose lines show their clauses, and on those whose lines
  do not name the runtime table.
* `PlainFile.sound`: on a file in the plain layout they are, when true rows name two states and stand before the
  false ones.
-/

set_option autoImplicit false

namespace Rpr

open FirstMatch

/-! ## Soundness -/

/-- The names of a transition of the runtime table. -/
def TableNames (names : String × String) : Prop :=
  ∃ s t, leanToPython.lookup names.1 = some s ∧ leanToPython.lookup names.2 = some t ∧ t ∈ allowedTransitions s

/-- The constructors the names are of. -/
def StateFile.Declares (file : StateFile) (names : String × String) : Prop :=
  names.1 ∈ file.constructors ∧ names.2 ∈ file.constructors

/-- The function is true on exactly the transitions of the runtime table. -/
def StateFile.Means (file : StateFile) : Prop :=
  ∀ source target, (file.Declares (source, target) ∧ file.eval source target = some true) ↔
    TableNames (source, target)

/-- A match with the state file says that the function is the runtime table. -/
def CheckSound (sha256 : Bytes → String) (lean : Bytes) (file : StateFile) : Prop := Matched sha256 lean → file.Means

/-- A match of a spec says that the spec, the runtime table and the function agree. -/
def SpecSound (sha256 : Bytes → String) (lean : Bytes) (file : StateFile) : Prop :=
  ∀ js lib spec, Verified sha256 js lib spec lean →
    (∃ text raw, readText spec = .ok text ∧ loads js defaultHooks text = .ok raw ∧ SpecAgrees raw) ∧ file.Means

/-! ## The condition -/

/-- The lines that read `| source, target => true` name the runtime table, and those of the declaration name states. -/
structure LinesNameTable (lean : Bytes) : Prop where
  states : ∀ name ∈ stateNames (fileLines lean), ∃ s, leanToPython.lookup name = some s
  edges : ∀ names, names ∈ edgeNames (fileLines lean) ↔ TableNames names

/-- The lines of the declaration name every state. -/
def LinesNameStates (lean : Bytes) : Prop :=
  ∀ s, ∃ name ∈ stateNames (fileLines lean), leanToPython.lookup name = some s

/-- The lines that read `| source, target => true` are what the clauses decide. -/
def Shown (lean : Bytes) (file : StateFile) : Prop :=
  Shows Clause.covers Clause.value file.clauses file.Declares fun names => names ∈ edgeNames (fileLines lean)

theorem means_iff_shown {lean : Bytes} {file : StateFile} (h : LinesNameTable lean) : file.Means ↔ Shown lean file := by
  rw [Shown, shows_iff]
  exact ⟨fun hmeans names => (hmeans names.1 names.2).trans (h.edges names).symm,
    fun hshown source target => (hshown (source, target)).trans (h.edges (source, target))⟩

theorem namedEdge_eq_some {names : String × String} {edge : Edge} : namedEdge names = some edge ↔
    leanToPython.lookup names.1 = some edge.1 ∧ leanToPython.lookup names.2 = some edge.2 := by
  rw [namedEdge]
  cases leanToPython.lookup names.1 <;> cases leanToPython.lookup names.2 <;> simp [Prod.ext_iff]

/-- The lines name the table exactly when their edges are its edges. -/
theorem linesNameTable_iff {lean : Bytes} : LinesNameTable lean ↔
    Known (fileLines lean) ∧ namedEdges (fileLines lean) = runtimeEdges := by
  have hmem : ∀ edge, edge ∈ namedEdges (fileLines lean) ↔
      ∃ names ∈ edgeNames (fileLines lean), namedEdge names = some edge := fun edge => by
    rw [namedEdges, List.mem_toFinset, List.mem_filterMap]
  constructor
  · intro h
    refine ⟨⟨h.states, fun names hnames => ?_⟩, Finset.ext fun edge => ?_⟩
    · obtain ⟨s, t, hs, ht, -⟩ := (h.edges names).mp hnames
      exact ⟨(s, t), namedEdge_eq_some.mpr ⟨hs, ht⟩⟩
    · rw [hmem, ← Prod.mk.eta (p := edge), mem_runtimeEdges]
      constructor
      · rintro ⟨names, hnames, hedge⟩
        obtain ⟨s, t, hs, ht, hallowed⟩ := (h.edges names).mp hnames
        obtain ⟨hs', ht'⟩ := namedEdge_eq_some.mp hedge
        rwa [← Option.some.inj (hs.symm.trans hs'), ← Option.some.inj (ht.symm.trans ht')]
      · intro hallowed
        have hs := lookup_formalName edge.1
        have ht := lookup_formalName edge.2
        exact ⟨(formalName edge.1, formalName edge.2), (h.edges _).mpr ⟨edge.1, edge.2, hs, ht, hallowed⟩,
          namedEdge_eq_some.mpr ⟨hs, ht⟩⟩
  · rintro ⟨hknown, hedges⟩
    refine ⟨hknown.states, fun names => ⟨fun hnames => ?_, ?_⟩⟩
    · obtain ⟨edge, hedge⟩ := hknown.edges names hnames
      have hmem' := (hmem edge).mpr ⟨names, hnames, hedge⟩
      rw [hedges, ← Prod.mk.eta (p := edge), mem_runtimeEdges] at hmem'
      obtain ⟨hs, ht⟩ := namedEdge_eq_some.mp hedge
      exact ⟨edge.1, edge.2, hs, ht, hmem'⟩
    · rintro ⟨s, t, hs, ht, hallowed⟩
      rw [← mem_runtimeEdges, ← hedges] at hallowed
      obtain ⟨names', hnames', hedge⟩ := (hmem (s, t)).mp hallowed
      obtain ⟨hs', ht'⟩ := namedEdge_eq_some.mp hedge
      have hname : names = names' := Prod.ext (namedState_inj hs hs') (namedState_inj ht ht')
      rwa [hname]

section Sound

variable {sha256 : Bytes → String} {lean : Bytes} {text : List Char}

/-- Which files the check reports as matched. -/
theorem matched_iff_lines (hdata : decodeUtf8 lean = some text) :
    Matched sha256 lean ↔ LinesNameTable lean ∧ LinesNameStates lean := by
  have hstates : namedStates (fileLines lean) = Finset.univ ↔ LinesNameStates lean := by
    rw [Finset.eq_univ_iff_forall]
    refine forall_congr' fun s => ?_
    rw [namedStates, List.mem_toFinset, List.mem_filterMap]
    rfl
  rw [matched_iff, parseLean_eq_ok hdata, linesNameTable_iff, ← hstates, Prod.mk.injEq, and_assoc]
  exact and_congr_right fun _ => ⟨fun h => ⟨h.2.symm, h.1.symm⟩, fun h => ⟨h.2.symm, h.1.symm⟩⟩

theorem exists_parseLean_iff (hdata : decodeUtf8 lean = some text) :
    (∃ states, parseLean lean = .ok (states, runtimeEdges)) ↔ LinesNameTable lean := by
  simp only [parseLean_eq_ok hdata, linesNameTable_iff, Prod.mk.injEq]
  exact ⟨fun ⟨_, hknown, _, hedges⟩ => ⟨hknown, hedges.symm⟩, fun ⟨hknown, hedges⟩ => ⟨_, hknown, rfl, hedges.symm⟩⟩

end Sound

/-! ## A spec of the runtime table -/

/-- The runtime table as a spec. -/
def tableSpec : Json :=
  .obj [("states", .arr (PathwayState.members.map fun s => .text s.value)),
    ("transitions", .obj (PathwayState.members.map fun s =>
      (.utf8 s.value, .arr ((allowedTransitions s).map fun t => .text t.value))))]

theorem specEdges_tableSpec : specEdges .sample tableSpec.sortKeys = .ok runtimeEdges := by
  have hsome : (specEdges .sample tableSpec.sortKeys).toOption = some runtimeEdges := by decide
  cases hedges : specEdges .sample tableSpec.sortKeys with
  | error e =>
    rw [hedges] at hsome
    exact (nomatch hsome)
  | ok edges =>
    rw [hedges] at hsome
    exact congrArg Except.ok (Option.some.inj hsome)

/-- The spec is written and read back. -/
theorem exists_tableSpec : ∃ spec text, readText spec = .ok text ∧
    loads .sample defaultHooks text = .ok tableSpec.sortKeys := by
  have hcanonical : ∃ text, tableSpec.canonical = some text ∧ '\r' ∉ text := by
    have hsome : tableSpec.canonical.any (fun text => !text.contains '\r') = true := by decide +kernel
    obtain ⟨text, htext, hreturn⟩ := (Option.any_eq_true _ _).mp hsome
    exact ⟨text, htext, by simpa using hreturn⟩
  obtain ⟨text, htext, hreturn⟩ := hcanonical
  have hunique : tableSpec.UniqueKeys := by
    refine ⟨by simp, Json.uniqueItems_iff.mpr fun j hj => ?_, ⟨by decide, Json.uniqueFields_iff.mpr
      fun f hf => ?_⟩, trivial⟩
    · obtain ⟨s, -, rfl⟩ := List.mem_map.mp hj
      trivial
    · obtain ⟨s, -, rfl⟩ := List.mem_map.mp hf
      refine Json.uniqueItems_iff.mpr fun j hj => ?_
      obtain ⟨t, -, rfl⟩ := List.mem_map.mp hj
      trivial
  have hread : tableSpec.Leaves (Json.ReadsFloats .sample defaultHooks) := by
    refine ⟨trivial, Json.leavesItems_iff.mpr fun j hj => ?_, trivial, Json.leavesFields_iff.mpr
      fun f hf => ⟨trivial, ?_⟩, trivial⟩
    · obtain ⟨s, -, rfl⟩ := List.mem_map.mp hj
      trivial
    · obtain ⟨s, -, rfl⟩ := List.mem_map.mp hf
      refine Json.leavesItems_iff.mpr fun j hj => ?_
      obtain ⟨t, -, rfl⟩ := List.mem_map.mp hj
      trivial
  refine ⟨encodeUtf8 text, text, ?_, Json.loads_canonical defaultHooks_keepsObjects htext hunique hread (by decide)⟩
  rw [readText, decodeBody, decodeUtf8_encodeUtf8]
  exact congrArg Except.ok (universalNewlines_of_notMem hreturn)

/-! ## The checks -/

section Sound

variable {sha256 : Bytes → String} {lean : Bytes} {file : StateFile}

theorem exists_text (h : StateFile.ofBytes lean = some file) : ∃ text, decodeUtf8 lean = some text := by
  obtain ⟨text, htext, -⟩ := Option.bind_eq_some_iff.mp h
  exact ⟨text, htext⟩

theorem checkSound_iff (h : StateFile.ofBytes lean = some file) :
    CheckSound sha256 lean file ↔ (LinesNameTable lean ∧ LinesNameStates lean → Shown lean file) := by
  obtain ⟨text, hdata⟩ := exists_text h
  rw [CheckSound, matched_iff_lines hdata]
  exact forall_congr' fun hlines => means_iff_shown hlines.1

/-- The spec of the table is matched with every file whose lines name the table. -/
theorem exists_verified (h : StateFile.ofBytes lean = some file) (hlines : LinesNameTable lean) :
    ∃ spec, Verified sha256 .sample .sample spec lean := by
  obtain ⟨text, hdata⟩ := exists_text h
  obtain ⟨spec, specText, hread, hloads⟩ := exists_tableSpec
  exact ⟨spec, verified_iff.mpr
    ⟨⟨specText, _, hread, hloads, specEdges_tableSpec⟩, (exists_parseLean_iff hdata).mpr hlines⟩⟩

theorem specSound_iff (h : StateFile.ofBytes lean = some file) :
    SpecSound sha256 lean file ↔ (LinesNameTable lean → Shown lean file) := by
  obtain ⟨text, hdata⟩ := exists_text h
  constructor
  · intro hsound hlines
    obtain ⟨spec, hverified⟩ := exists_verified h hlines
    exact (means_iff_shown hlines).mp (hsound .sample .sample spec hverified).2
  · intro hshown js lib spec hverified
    obtain ⟨⟨specText, raw, hread, hloads, hedges⟩, hparse⟩ := verified_iff.mp hverified
    have hlines := (exists_parseLean_iff hdata).mp hparse
    exact ⟨⟨specText, raw, hread, hloads, specAgrees_of_edges hedges⟩, (means_iff_shown hlines).mpr (hshown hlines)⟩

end Sound

/-! ## Files in the plain layout -/

namespace PlainFile

variable {f : PlainFile}

theorem edge?_eq_some {row : PlainRow} {edge : Edge} :
    row.edge? = some edge ↔ row = ⟨some edge.1, some edge.2, true⟩ := by
  constructor
  · obtain ⟨_ | s, _ | t, _ | _⟩ := row <;> intro h <;> cases h
    rfl
  · rintro rfl
    rfl

/-- The lines of the rows. -/
theorem mem_edgeNames {names : String × String} : names ∈ edgeNames (fileLines f.data) ↔
    ∃ s t, names = (formalName s, formalName t) ∧ ⟨some s, some t, true⟩ ∈ f.rows := by
  obtain ⟨hknown, hfound⟩ := (parseLean_eq_ok (decodeUtf8_encodeUtf8 _)).mp f.parseLean_data
  have hedges : namedEdges (fileLines f.data) = f.edges := (Prod.mk.inj hfound).2.symm
  have hrow : ∀ edge, (∃ names ∈ edgeNames (fileLines f.data), namedEdge names = some edge) ↔
      ⟨some edge.1, some edge.2, true⟩ ∈ f.rows := fun edge => by
    rw [← List.mem_filterMap, ← List.mem_toFinset, ← namedEdges, hedges, edges, List.mem_toFinset, List.mem_filterMap]
    constructor
    · rintro ⟨row, hmem, hedge⟩
      exact edge?_eq_some.mp hedge ▸ hmem
    · exact fun hmem => ⟨_, hmem, rfl⟩
  constructor
  · intro hnames
    obtain ⟨edge, hedge⟩ := hknown.edges names hnames
    obtain ⟨hs, ht⟩ := namedEdge_eq_some.mp hedge
    exact ⟨edge.1, edge.2, Prod.ext (formalName_of_lookup hs) (formalName_of_lookup ht),
      (hrow edge).mp ⟨names, hnames, hedge⟩⟩
  · rintro ⟨s, t, rfl, hmem⟩
    obtain ⟨names, hnames, hedge⟩ := (hrow (s, t)).mpr hmem
    obtain ⟨hs, ht⟩ := namedEdge_eq_some.mp hedge
    rwa [← formalName_of_lookup hs, ← formalName_of_lookup ht]

theorem covers_clause {s t : PathwayState} {value : Bool} {names : String × String} :
    (PlainRow.clause ⟨some s, some t, value⟩).covers names = true ↔ names = (formalName s, formalName t) := by
  constructor
  · intro h
    obtain ⟨hs, ht⟩ := Bool.and_eq_true_iff.mp h
    exact Prod.ext (of_decide_eq_true hs).symm (of_decide_eq_true ht).symm
  · rintro rfl
    exact Bool.and_eq_true_iff.mpr ⟨decide_eq_true rfl, decide_eq_true rfl⟩

/-- Rows with wildcards are false, and no false row stands before a true one. -/
structure Ordered (f : PlainFile) : Prop where
  named : ∀ row ∈ f.rows, row.value = true → row.edge?.isSome = true
  sorted : f.rows.Pairwise fun row next => row.value = false → next.value = false

theorem Ordered.shown (h : f.Ordered) : Shown f.data f.file := by
  constructor
  · intro names hnames
    obtain ⟨s, t, rfl, hmem⟩ := mem_edgeNames.mp hnames
    have hs := f.declared _ hmem s (.inl rfl)
    have ht := f.declared _ hmem t (.inr rfl)
    exact ⟨⟨List.mem_map_of_mem hs, List.mem_map_of_mem ht⟩, _, List.mem_map_of_mem hmem, rfl, covers_clause.mpr rfl⟩
  · intro before c after hclauses hvalue names hnames _
    obtain ⟨s, t, rfl, hmem⟩ := mem_edgeNames.mp hnames
    obtain ⟨rows, rest, hrows, rfl, hrest⟩ := List.map_eq_append_iff.mp hclauses
    obtain ⟨row, later, rfl, rfl, rfl⟩ := List.map_eq_cons_iff.mp hrest
    have hsorted := (List.pairwise_append.mp (hrows ▸ h.sorted)).2.1
    rw [hrows] at hmem
    rcases List.mem_append.mp hmem with hmem | hmem
    · exact ⟨_, List.mem_map_of_mem hmem, rfl, covers_clause.mpr rfl⟩
    · rcases List.mem_cons.mp hmem with rfl | hmem
      · exact (nomatch (show true = false from hvalue))
      · exact (nomatch (show true = false from (List.pairwise_cons.mp hsorted).1 _ hmem hvalue))
  · intro before c after hclauses hvalue names _ hnot hcovers
    obtain ⟨rows, rest, hrows, rfl, hrest⟩ := List.map_eq_append_iff.mp hclauses
    obtain ⟨row, later, rfl, rfl, rfl⟩ := List.map_eq_cons_iff.mp hrest
    have hmem : row ∈ f.rows := hrows ▸ List.mem_append_right rows List.mem_cons_self
    obtain ⟨⟨s, t⟩, hedge⟩ := Option.isSome_iff_exists.mp (h.named row hmem hvalue)
    obtain rfl := edge?_eq_some.mp hedge
    exact absurd (mem_edgeNames.mpr ⟨s, t, covers_clause.mp hcovers, hmem⟩) hnot

/-- **In the plain layout the checks are sound**, when wildcards are false and behind the true rows. -/
theorem sound (sha256 : Bytes → String) (h : f.Ordered) :
    CheckSound sha256 f.data f.file ∧ SpecSound sha256 f.data f.file :=
  ⟨(checkSound_iff f.ofBytes_data).mpr fun _ => h.shown, (specSound_iff f.ofBytes_data).mpr fun _ => h.shown⟩

/-- The rows of the runtime table. -/
def tableRows : List PlainRow :=
  PathwayState.members.flatMap fun s => (allowedTransitions s).map fun t => ⟨some s, some t, true⟩

theorem nodup_members : PathwayState.members.Nodup := by decide

/-- All states, and rows about them. -/
def ofRows (rows : List PlainRow) : PlainFile :=
  ⟨PathwayState.members, rows, nodup_members, fun _ _ s _ => PathwayState.mem_members s⟩

/-- The runtime table, and `false` for all other pairs. -/
def table : PlainFile := ofRows (tableRows ++ [⟨none, none, false⟩])

/-- The runtime table, with a row that lets a completed pathway go on. -/
def reopened : PlainFile := ofRows (tableRows ++ [⟨some .completed, none, true⟩, ⟨none, none, false⟩])

theorem ordered_table : table.Ordered := ⟨by decide, by decide⟩

theorem matched_ofRows {sha256 : Bytes → String} {rows : List PlainRow}
    (h : (rows.filterMap PlainRow.edge?).toFinset = runtimeEdges) : Matched sha256 (ofRows rows).data := by
  have huniv : (ofRows rows).states.toFinset = Finset.univ :=
    Finset.eq_univ_iff_forall.mpr fun s => List.mem_toFinset.mpr (PathwayState.mem_members s)
  have hedges : (ofRows rows).edges = runtimeEdges := h
  rw [matched_iff, parseLean_data, huniv, hedges]

end PlainFile

/-! ## Where the checks are sound -/

/-- **Where the checks are sound.** Of a file whose lines name the runtime table, a match is right exactly when the
lines are what the clauses decide; no other file is matched. -/
theorem consistency_iff (sha256 : Bytes → String) {lean : Bytes} {file : StateFile}
    (h : StateFile.ofBytes lean = some file) :
    (CheckSound sha256 lean file ↔ (LinesNameTable lean ∧ LinesNameStates lean → Shown lean file)) ∧
      (SpecSound sha256 lean file ↔ (LinesNameTable lean → Shown lean file)) :=
  ⟨checkSound_iff h, specSound_iff h⟩

open PlainFile in
theorem table_consistent : Matched (fun _ => "") table.data ∧ CheckSound (fun _ => "") table.data table.file ∧
    SpecSound (fun _ => "") table.data table.file :=
  ⟨matched_ofRows (by decide), (consistency_iff _ table.ofBytes_data).1.mpr fun _ => ordered_table.shown,
    (consistency_iff _ table.ofBytes_data).2.mpr fun _ => ordered_table.shown⟩

open PlainFile in
/-- A true row with a wildcard is on no line that is looked for: the file is matched, and completed pathways go on. -/
theorem reopened_matched : StateFile.ofBytes reopened.data = some reopened.file ∧
    ¬ CheckSound (fun _ => "") reopened.data reopened.file ∧
    ¬ SpecSound (fun _ => "") reopened.data reopened.file := by
  have hmatched : Matched (fun _ => "") reopened.data := matched_ofRows (by decide)
  have hlines := ((matched_iff_lines (decodeUtf8_encodeUtf8 _)).mp hmatched).1
  have hmeans : ¬ reopened.file.Means := by
    intro h
    have hdeclared : reopened.file.Declares ("completed", "running") := ⟨by decide, by decide⟩
    have htrue : reopened.file.eval "completed" "running" = some true := by decide
    obtain ⟨s, t, hs, -, ht⟩ := (h "completed" "running").mp ⟨hdeclared, htrue⟩
    have hcompleted : leanToPython.lookup "completed" = some .completed := by decide
    obtain rfl := Option.some.inj (hs.symm.trans hcompleted)
    exact absurd ht List.not_mem_nil
  refine ⟨reopened.ofBytes_data, fun h => hmeans (h hmatched), fun h => ?_⟩
  obtain ⟨spec, hverified⟩ := exists_verified reopened.ofBytes_data hlines
  exact hmeans (h .sample .sample spec hverified).2

end Rpr
