import PathwayRuntime.Model.Consistency

/-!
# What the checks find

* `readLines`: the lines the parser reads; `stateNames`, `edgeNames`: the names on them.
* `parseLines_eq_ok`, `parseLean_eq_ok`: the parser returns what the lines name, when all names are known.
* `exists_matched`, `exists_verified`: when the two checks report a match.
* `SpecAgrees`: a spec says what the runtime table says; `specAgrees_of_edges`.
-/

set_option autoImplicit false

namespace Rpr

/-! ## The lines -/

/-- The lines that are read, with whether they stand in the declaration of the states. -/
def readLines : Bool → List (List Char) → List (Bool × List Char)
  | _, [] => []
  | inStates, line :: lines =>
    if startsStates line then readLines true lines
    else if inStates && endsStates line then readLines false lines
    else (inStates, line) :: readLines inStates lines

/-- The states on a line. -/
def stateNamesOn (line : Bool × List Char) : List String := (if line.1 then statePattern line.2 else none).toList

def stateNames (lines : List (Bool × List Char)) : List String := lines.flatMap stateNamesOn

def edgeNames (lines : List (Bool × List Char)) : List (String × String) :=
  lines.flatMap fun line => (edgePattern line.2).toList

/-- The lines of a file. -/
def fileLines (data : Bytes) : List (Bool × List Char) :=
  match readText data with
  | .ok text => readLines false (splitlines text)
  | .error _ => []

/-- The state a name is the name of. -/
def namedState (name : String) : Option PathwayState := leanToPython.lookup name

/-- The edge two names are the names of. -/
def namedEdge (names : String × String) : Option Edge :=
  match leanToPython.lookup names.1, leanToPython.lookup names.2 with
  | some source, some target => some (source, target)
  | _, _ => none

/-- All names are names of states. -/
structure Known (lines : List (Bool × List Char)) : Prop where
  states : ∀ name ∈ stateNames lines, ∃ s, namedState name = some s
  edges : ∀ names ∈ edgeNames lines, ∃ edge, namedEdge names = some edge

/-- The states the lines name. -/
def namedStates (lines : List (Bool × List Char)) : Finset PathwayState :=
  ((stateNames lines).filterMap namedState).toFinset

/-- The edges the lines name. -/
def namedEdges (lines : List (Bool × List Char)) : Finset Edge := ((edgeNames lines).filterMap namedEdge).toFinset

/-! ## The parser -/

theorem readState_eq_ok {states r : Finset PathwayState} {line : List Char} :
    readState states line = .ok r ↔ (∀ name ∈ (statePattern line).toList, ∃ s, namedState name = some s) ∧
      r = states ∪ ((statePattern line).toList.filterMap namedState).toFinset := by
  rw [readState]
  cases statePattern line with
  | none => simp [eq_comm]
  | some name =>
    cases hlookup : leanToPython.lookup name with
    | none => simp [namedState, hlookup]
    | some s => simp [namedState, hlookup, eq_comm]

theorem readEdge_eq_ok {edges r : Finset Edge} {line : List Char} :
    readEdge edges line = .ok r ↔ (∀ names ∈ (edgePattern line).toList, ∃ edge, namedEdge names = some edge) ∧
      r = edges ∪ ((edgePattern line).toList.filterMap namedEdge).toFinset := by
  rw [readEdge]
  cases edgePattern line with
  | none => simp [eq_comm]
  | some names =>
    cases hsource : leanToPython.lookup names.1 <;> cases htarget : leanToPython.lookup names.2 <;>
      simp [namedEdge, hsource, htarget, eq_comm]

theorem known_cons {line : Bool × List Char} {lines : List (Bool × List Char)} :
    Known (line :: lines) ↔ ((∀ name ∈ stateNamesOn line, ∃ s, namedState name = some s) ∧
      ∀ names ∈ (edgePattern line.2).toList, ∃ edge, namedEdge names = some edge) ∧ Known lines := by
  have hstates : stateNames (line :: lines) = stateNamesOn line ++ stateNames lines := rfl
  have hedges : edgeNames (line :: lines) = (edgePattern line.2).toList ++ edgeNames lines := rfl
  constructor
  · rintro ⟨hs, he⟩
    rw [hstates, List.forall_mem_append] at hs
    rw [hedges, List.forall_mem_append] at he
    exact ⟨⟨hs.1, he.1⟩, hs.2, he.2⟩
  · rintro ⟨⟨hs, he⟩, hs', he'⟩
    exact ⟨by rw [hstates, List.forall_mem_append]; exact ⟨hs, hs'⟩,
      by rw [hedges, List.forall_mem_append]; exact ⟨he, he'⟩⟩

/-- The loop returns what the lines name. -/
theorem parseLines_eq_ok {lines : List (List Char)} {inStates : Bool} {states : Finset PathwayState}
    {edges : Finset Edge} {r : Finset PathwayState × Finset Edge} :
    parseLines inStates states edges lines = .ok r ↔ Known (readLines inStates lines) ∧
      r = (states ∪ namedStates (readLines inStates lines), edges ∪ namedEdges (readLines inStates lines)) := by
  induction lines generalizing inStates states edges with
  | nil =>
    have hknown : Known [] := ⟨fun _ h => absurd h List.not_mem_nil, fun _ h => absurd h List.not_mem_nil⟩
    simp [parseLines, readLines, namedStates, namedEdges, stateNames, edgeNames, hknown, eq_comm]
  | cons line lines ih =>
    by_cases hstart : startsStates line = true
    · rw [parseLines, readLines, if_pos hstart, if_pos hstart, ih]
    · by_cases hend : (inStates && endsStates line) = true
      · rw [parseLines, readLines, if_neg hstart, if_neg hstart, if_pos hend, if_pos hend, ih]
      · have hstep : parseLines inStates states edges (line :: lines) =
            (if inStates then readState states line else .ok states) >>= fun states' =>
              readEdge edges line >>= fun edges' => parseLines inStates states' edges' lines := by
          rw [parseLines, if_neg hstart, if_neg hend]
          cases inStates <;> rfl
        rw [hstep, readLines, if_neg hstart, if_neg hend, known_cons]
        have hsplit : namedStates ((inStates, line) :: readLines inStates lines) =
            ((stateNamesOn (inStates, line)).filterMap namedState).toFinset ∪
              namedStates (readLines inStates lines) := by
          rw [namedStates, stateNames, List.flatMap_cons, List.filterMap_append, List.toFinset_append]
          rfl
        have hsplit' : namedEdges ((inStates, line) :: readLines inStates lines) =
            ((edgePattern line).toList.filterMap namedEdge).toFinset ∪ namedEdges (readLines inStates lines) := by
          rw [namedEdges, edgeNames, List.flatMap_cons, List.filterMap_append, List.toFinset_append]
          rfl
        have hstate : ∀ {r : Finset PathwayState}, (if inStates then readState states line else .ok states) = .ok r ↔
            (∀ name ∈ stateNamesOn (inStates, line), ∃ s, namedState name = some s) ∧
              r = states ∪ ((stateNamesOn (inStates, line)).filterMap namedState).toFinset := by
          intro r
          cases inStates with
          | false => simp [stateNamesOn, eq_comm]
          | true => exact readState_eq_ok
        rw [hsplit, hsplit', ← Finset.union_assoc, ← Finset.union_assoc]
        constructor
        · intro h
          obtain ⟨states', hstates, h⟩ := except_bind_eq_ok.mp h
          obtain ⟨edges', hedges, h⟩ := except_bind_eq_ok.mp h
          obtain ⟨hknown, rfl⟩ := hstate.mp hstates
          obtain ⟨hknown', rfl⟩ := readEdge_eq_ok.mp hedges
          obtain ⟨hrest, rfl⟩ := ih.mp h
          exact ⟨⟨⟨hknown, hknown'⟩, hrest⟩, rfl⟩
        · rintro ⟨⟨⟨hknown, hknown'⟩, hrest⟩, rfl⟩
          exact except_bind_eq_ok.mpr ⟨_, hstate.mpr ⟨hknown, rfl⟩,
            except_bind_eq_ok.mpr ⟨_, readEdge_eq_ok.mpr ⟨hknown', rfl⟩, ih.mpr ⟨hrest, rfl⟩⟩⟩

/-- The parser returns what the lines name. -/
theorem parseLean_eq_ok {data : Bytes} {text : List Char} (hdata : decodeUtf8 data = some text)
    {r : Finset PathwayState × Finset Edge} :
    parseLean data = .ok r ↔
      Known (fileLines data) ∧ r = (namedStates (fileLines data), namedEdges (fileLines data)) := by
  have hread : readText data = .ok (universalNewlines text) := by
    rw [readText, decodeBody, hdata]
    rfl
  have hparse : parseLean data = parseLines false ∅ ∅ (splitlines (universalNewlines text)) := by
    unfold parseLean
    rw [hread]
    rfl
  rw [hparse, parseLines_eq_ok, fileLines, hread, Finset.empty_union, Finset.empty_union]

theorem namedState_inj {name name' : String} {s : PathwayState} (h : namedState name = some s)
    (h' : namedState name' = some s) : name = name' := by
  have hmem : ∀ {n : String}, namedState n = some s → (n, s) ∈ leanToPython := by
    intro n hn
    obtain ⟨before, after, htable, -⟩ := List.lookup_eq_some_iff.mp hn
    exact htable ▸ List.mem_append_right before List.mem_cons_self
  have hs := hmem h
  have hs' := hmem h'
  revert hs hs'
  cases s <;> simp +contextual [leanToPython]

/-! ## The reports -/

@[simp] theorem sortedNames_eq_nil {α : Type} {name : α → String} {items : Finset α} :
    sortedNames name items = [] ↔ items = ∅ := by
  rw [sortedNames, ← List.length_eq_zero_iff, Multiset.length_sort, Multiset.card_map, Finset.card_val,
    Finset.card_eq_zero]

theorem sdiff_both {α : Type} [DecidableEq α] {a b : Finset α} : a \ b = ∅ ∧ b \ a = ∅ ↔ a = b := by
  rw [Finset.sdiff_eq_empty_iff_subset, Finset.sdiff_eq_empty_iff_subset]
  exact ⟨fun h => h.1.antisymm h.2, fun h => h ▸ ⟨subset_rfl, subset_rfl⟩⟩

section Reports

variable {sha256 : Bytes → String} {js : JsonPlatform} {lib : ReprLibrary} {spec lean : Bytes}

/-- The consistency check reports a match. -/
def Matched (sha256 : Bytes → String) (lean : Bytes) : Prop :=
  ∃ r, checkFormalConsistency sha256 lean = .ok r ∧ r.isMatched = true

/-- The check of the spec reports a match. -/
def Verified (sha256 : Bytes → String) (js : JsonPlatform) (lib : ReprLibrary) (spec lean : Bytes) : Prop :=
  ∃ r, verifyCanonicalSpec sha256 js lib spec lean = .ok r ∧ r.isMatched = true

theorem matched_iff : Matched sha256 lean ↔ parseLean lean = .ok (Finset.univ, runtimeEdges) := by
  constructor
  · rintro ⟨r, hcheck, hmatched⟩
    obtain ⟨⟨states, edges⟩, hparse, h⟩ := except_bind_eq_ok.mp hcheck
    obtain rfl := Except.ok.inj h
    simp only [Bool.and_eq_true, List.isEmpty_iff, sortedNames_eq_nil] at hmatched
    obtain ⟨⟨⟨hruntime, hlean⟩, hpython⟩, hstates⟩ := hmatched
    rw [hparse, sdiff_both.mp ⟨hruntime, hlean⟩, sdiff_both.mp ⟨hpython, hstates⟩]
  · intro hparse
    refine ⟨_, except_bind_eq_ok.mpr ⟨_, hparse, rfl⟩, ?_⟩
    simp

theorem verified_iff : Verified sha256 js lib spec lean ↔
    (∃ text raw, readText spec = .ok text ∧ loads js defaultHooks text = .ok raw ∧
      specEdges lib raw = .ok runtimeEdges) ∧ ∃ states, parseLean lean = .ok (states, runtimeEdges) := by
  constructor
  · rintro ⟨r, hverify, hmatched⟩
    obtain ⟨text, htext, h⟩ := except_bind_eq_ok.mp hverify
    obtain ⟨raw, hraw, h⟩ := except_bind_eq_ok.mp h
    obtain ⟨found, hfound, h⟩ := except_bind_eq_ok.mp h
    obtain ⟨⟨states, edges⟩, hparse, h⟩ := except_bind_eq_ok.mp h
    obtain rfl := Except.ok.inj h
    simp only [Bool.and_eq_true, List.isEmpty_iff, sortedNames_eq_nil] at hmatched
    obtain ⟨⟨⟨hruntime, hspec⟩, hlean⟩, hnot⟩ := hmatched
    obtain rfl := sdiff_both.mp ⟨hruntime, hspec⟩
    obtain rfl := sdiff_both.mp ⟨hlean, hnot⟩
    exact ⟨⟨text, raw, htext, hraw, hfound⟩, states, hparse⟩
  · rintro ⟨⟨text, raw, htext, hraw, hfound⟩, states, hparse⟩
    refine ⟨_, except_bind_eq_ok.mpr ⟨text, htext, except_bind_eq_ok.mpr ⟨raw, hraw,
      except_bind_eq_ok.mpr ⟨_, hfound, except_bind_eq_ok.mpr ⟨_, hparse, rfl⟩⟩⟩⟩, ?_⟩
    simp

end Reports

/-! ## The spec -/

/-- The transitions of a decoded spec list a target under a source. -/
def SpecLists (raw : Json) (source target : PyText) : Prop :=
  ∃ fields targets items, raw.get? "transitions" = some (.obj fields) ∧ (source, targets) ∈ fields ∧
    iterated targets = .ok items ∧ .str target ∈ items

/-- A decoded spec says what the runtime table says.

* `states`: it lists every state once, and nothing else.
* `transitions`: it lists the transitions of the table, and no others. -/
structure SpecAgrees (raw : Json) : Prop where
  states : ∃ value items, raw.get? "states" = some value ∧ iterated value = .ok items ∧
    items.Perm (PathwayState.members.map fun s => .text s.value)
  transitions : ∀ source target, SpecLists raw source target ↔
    ∃ s t, source = .utf8 s.value ∧ target = .utf8 t.value ∧ t ∈ allowedTransitions s

theorem mem_runtimeEdges {s t : PathwayState} : (s, t) ∈ runtimeEdges ↔ t ∈ allowedTransitions s := by
  simp [runtimeEdges]

theorem jsonItem_eq_ok {key : String} {raw value : Json} (h : jsonItem key raw = .ok value) :
    raw.get? (.utf8 key) = some value := by
  cases raw with
  | obj fields =>
    simp only [jsonItem] at h
    cases hlookup : fields.lookup (.utf8 key) with
    | none => rw [hlookup] at h; exact (nomatch h)
    | some item =>
      rw [hlookup] at h
      exact hlookup.trans (congrArg some (Except.ok.inj h))
  | _ => exact (nomatch h)

theorem state?_eq_some {value : Json} {s : PathwayState} (h : value.state? = some s) : value = .text s.value := by
  cases value with
  | str text =>
    have hfound := List.find?_some h
    rw [of_decide_eq_true hfound]
    rfl
  | _ => exact (nomatch h)

variable {lib : ReprLibrary}

theorem pathwayState_eq_ok {value : Json} {s : PathwayState} (h : pathwayState lib value = .ok s) :
    value = .text s.value := by
  rw [pathwayState] at h
  cases hstate : value.state? with
  | some state =>
    rw [hstate] at h
    obtain rfl := Except.ok.inj h
    exact state?_eq_some hstate
  | none =>
    rw [hstate] at h
    obtain ⟨text, -, h⟩ := except_bind_eq_ok.mp h
    exact (nomatch h)

/-- The edges of a member: its source with each of its targets. -/
theorem memberEdges_eq_ok {member : PyText × Json} {edges : List Edge} (h : memberEdges lib member = .ok edges) :
    ∃ items, iterated member.2 = .ok items ∧ List.Forall₂ (fun item edge =>
      member.1 = .utf8 (Prod.fst edge).value ∧ item = Json.text (Prod.snd edge).value) items edges := by
  obtain ⟨items, hitems, h⟩ := except_bind_eq_ok.mp h
  refine ⟨items, hitems, (forall₂_of_mapM_ok h).imp fun item edge hedge => ?_⟩
  obtain ⟨s, hs, hedge⟩ := except_bind_eq_ok.mp hedge
  obtain ⟨t, ht, hedge⟩ := except_bind_eq_ok.mp hedge
  obtain rfl := Except.ok.inj hedge
  exact ⟨Json.str.inj (pathwayState_eq_ok hs), pathwayState_eq_ok ht⟩

/-- The values of all states, in some order. -/
theorem perm_of_states {items : List Json} {states : List PathwayState}
    (h : List.Forall₂ (fun item s => pathwayState lib item = .ok s) items states) (hnodup : states.Nodup)
    (huniv : states.toFinset = Finset.univ) : items.Perm (PathwayState.members.map fun s => .text s.value) := by
  have hitems : items = states.map fun s => .text s.value := by
    rw [← List.forall₂_eq_eq_eq, List.forall₂_map_right_iff]
    exact h.imp fun item s hs => pathwayState_eq_ok hs
  have hmembers : PathwayState.members.toFinset = Finset.univ := by decide
  rw [hitems]
  exact (List.perm_of_nodup_nodup_toFinset_eq hnodup (by decide) (huniv.trans hmembers.symm)).map _

/-- **A spec whose edges are the table's agrees with it.** -/
theorem specAgrees_of_edges {raw : Json} (h : specEdges lib raw = .ok runtimeEdges) : SpecAgrees raw := by
  obtain ⟨value, hvalue, h⟩ := except_bind_eq_ok.mp h
  obtain ⟨items, hitems, h⟩ := except_bind_eq_ok.mp h
  obtain ⟨states, hstates, h⟩ := except_bind_eq_ok.mp h
  split_ifs at h with hcond
  obtain ⟨hnodup, huniv⟩ := not_or.mp hcond
  obtain ⟨transitions, htransitions, h⟩ := except_bind_eq_ok.mp h
  obtain ⟨keys, -, h⟩ := except_bind_eq_ok.mp h
  split_ifs at h
  obtain ⟨fields, hfields, h⟩ := except_bind_eq_ok.mp h
  obtain ⟨edges, hedges, h⟩ := except_bind_eq_ok.mp h
  have hobj : transitions = .obj fields := by
    cases transitions with
    | obj found => rw [Except.ok.inj hfields]
    | _ => exact (nomatch hfields)
  have hget := jsonItem_eq_ok htransitions
  rw [hobj] at hget
  have hmember := (forall₂_of_mapM_ok hedges).imp fun _ _ hm => memberEdges_eq_ok hm
  have hmem : ∀ s t, (∃ member ∈ edges, (s, t) ∈ member) ↔ t ∈ allowedTransitions s := fun s t => by
    rw [← mem_runtimeEdges, ← Except.ok.inj h, List.mem_toFinset, List.mem_flatten]
  refine ⟨⟨value, items, jsonItem_eq_ok hvalue, hitems,
    perm_of_states (forall₂_of_mapM_ok hstates) (not_not.mp hnodup) (not_not.mp huniv)⟩, fun source target => ⟨?_, ?_⟩⟩
  · rintro ⟨fields', targets, items, hget', hfield, hitems, htarget⟩
    obtain rfl := Json.obj.inj (Option.some.inj (hget.symm.trans hget'))
    obtain ⟨found, hfound, items', hitems', hforall⟩ := exists_right_of_forall₂ hmember hfield
    obtain rfl := Except.ok.inj (hitems'.symm.trans hitems)
    obtain ⟨⟨s, t⟩, hedge, hs, ht⟩ := exists_right_of_forall₂ hforall htarget
    exact ⟨s, t, hs, Json.str.inj ht, (hmem s t).mp ⟨found, hfound, hedge⟩⟩
  · rintro ⟨s, t, rfl, rfl, ht⟩
    obtain ⟨found, hfound, hedge⟩ := (hmem s t).mpr ht
    obtain ⟨⟨source, targets⟩, hfield, items', hitems', hforall⟩ := exists_left_of_forall₂ hmember hfound
    obtain ⟨item, hitem, hs, rfl⟩ := exists_left_of_forall₂ hforall hedge
    obtain rfl : source = .utf8 s.value := hs
    exact ⟨fields, targets, items', hget, hfield, hitems', hitem⟩

end Rpr
