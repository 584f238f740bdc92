import PathwayRuntime.Model.Consistency
import PathwayRuntime.Parity.StateFile

/-!
# State files in the plain layout

One constructor or clause a line and no comments: here the parser and the tokens see the same clauses.

* `PlainFile`: states and rows; `PlainFile.data`: the file they are written as.
* `PlainFile.parseLean_data`: the parser finds the states and the edges of the true rows.
* `PlainFile.ofBytes_data`: the file reads as its constructors and clauses.
-/

set_option autoImplicit false

namespace Rpr

/-! ## The layout -/

/-- The name of a state in the state file. -/
def formalName (s : PathwayState) : String := ((leanToPython.find? fun entry => entry.2 = s).map Prod.fst).getD ""

/-- A clause of states, or of wildcards. -/
structure PlainRow where
  source : Option PathwayState
  target : Option PathwayState
  value : Bool

/-- States and rows about them. -/
structure PlainFile where
  states : List PathwayState
  rows : List PlainRow
  nodup : states.Nodup
  declared : ∀ row ∈ rows, ∀ s, row.source = some s ∨ row.target = some s → s ∈ states

/-- `[A-Za-z][A-Za-z0-9]*`. -/
def IsIdentifier (name : String) : Prop :=
  ∃ c cs, name.toList = c :: cs ∧ isLetter c = true ∧ ∀ x ∈ cs, isAlnum x = true

def unlines (lines : List (List Char)) : List Char := lines.flatMap (· ++ ['\n'])

def stateLine (s : PathwayState) : List Char := "  | ".toList ++ (formalName s).toList

def patternText : Option PathwayState → List Char
  | some s => (formalName s).toList
  | none => ['_']

def valueText (value : Bool) : List Char := (if value then "true" else "false").toList

def PlainRow.line (row : PlainRow) : List Char :=
  "  | ".toList ++ (patternText row.source ++ (", ".toList ++ (patternText row.target ++
    (" => ".toList ++ valueText row.value))))

def openLines : List (List Char) :=
  ["  deriving DecidableEq".toList, "open PathwayState".toList,
    "def allowed : PathwayState → PathwayState → Bool".toList]

namespace PlainFile

def lines (f : PlainFile) : List (List Char) :=
  "inductive PathwayState where".toList :: (f.states.map stateLine ++ (openLines ++ f.rows.map PlainRow.line))

def data (f : PlainFile) : Bytes := encodeUtf8 (unlines f.lines)

end PlainFile

/-! ## Names -/

theorem isIdentifier_formalName (s : PathwayState) : IsIdentifier (formalName s) := by
  cases s <;> exact ⟨_, _, by rfl, by decide, List.all_eq_true.mp (by decide)⟩

theorem lookup_formalName (s : PathwayState) : leanToPython.lookup (formalName s) = some s := by
  cases s <;> decide

theorem formalName_injective : Function.Injective formalName := by
  intro s t h
  have := lookup_formalName s
  rw [h, lookup_formalName t] at this
  exact (Option.some.inj this).symm

/-- The table gives no state two names. -/
theorem formalName_of_lookup {name : String} {s : PathwayState} (h : leanToPython.lookup name = some s) :
    name = formalName s := by
  obtain ⟨before, after, htable, -⟩ := List.lookup_eq_some_iff.mp h
  have hmem : (name, s) ∈ leanToPython := htable ▸ List.mem_append_right before List.mem_cons_self
  revert hmem
  cases s <;> simp [leanToPython, formalName]

theorem isAlnum_of_isLetter {c : Char} (h : isLetter c = true) : isAlnum c = true := by
  rw [isAlnum, h, Bool.true_or]

namespace IsIdentifier

variable {name : String}

theorem alnum (h : IsIdentifier name) : ∀ c ∈ name.toList, isAlnum c = true := by
  obtain ⟨c, cs, hname, hc, hcs⟩ := h
  rw [hname]
  rintro x (_ | ⟨_, hx⟩)
  · exact isAlnum_of_isLetter hc
  · exact hcs x hx

end IsIdentifier

/-! ## The lines -/

/-- The text has no line break. -/
def IsLine (line : List Char) : Prop := ∀ c ∈ line, isLineBreak c = false

theorem splitlines_line {line text : List Char} (h : IsLine line) :
    splitlines (line ++ '\n' :: text) = line :: splitlines text := by
  induction line with
  | nil => rfl
  | cons c line ih =>
    have hc : isLineBreak c = false := h c List.mem_cons_self
    have hne : c ≠ '\r' := fun heq => by simp [heq, isLineBreak] at hc
    have hrest := ih fun x hx => h x (List.mem_cons_of_mem c hx)
    rw [List.cons_append, splitlines, if_neg (by simp [hc]), hrest]
    exact fun _ heq => absurd heq hne

theorem splitlines_unlines {lines : List (List Char)} (h : ∀ line ∈ lines, IsLine line) :
    splitlines (unlines lines) = lines := by
  induction lines with
  | nil => rfl
  | cons line lines ih =>
    have hunlines : unlines (line :: lines) = line ++ '\n' :: unlines lines := by simp [unlines]
    rw [hunlines, splitlines_line (h line List.mem_cons_self),
      ih fun l hl => h l (List.mem_cons_of_mem line hl)]

theorem universalNewlines_of_notMem {text : List Char} (h : '\r' ∉ text) : universalNewlines text = text := by
  induction text with
  | nil => rfl
  | cons c text ih =>
    have hne : c ≠ '\r' := fun heq => h (heq ▸ List.mem_cons_self)
    rw [universalNewlines, if_neg hne, ih fun hmem => h (List.mem_cons_of_mem c hmem)]
    exact fun _ heq => absurd heq hne

/-! ## What the patterns find -/

theorem toNat_of_isAlnum {c : Char} (h : isAlnum c = true) :
    48 ≤ c.toNat ∧ c.toNat ≤ 57 ∨ 65 ≤ c.toNat ∧ c.toNat ≤ 90 ∨ 97 ≤ c.toNat ∧ c.toNat ≤ 122 := by
  simp only [isAlnum, isLetter, Bool.or_eq_true, Bool.and_eq_true, decide_eq_true_eq] at h
  rcases h with (⟨hlow, hhigh⟩ | ⟨hlow, hhigh⟩) | ⟨hlow, hhigh⟩
  · exact .inr (.inr ⟨hlow, hhigh⟩)
  · exact .inr (.inl ⟨hlow, hhigh⟩)
  · exact .inl ⟨hlow, hhigh⟩

theorem isSpace_of_isAlnum {c : Char} (h : isAlnum c = true) : isSpace c = false := by
  have := toNat_of_isAlnum h
  simp only [isSpace, Bool.or_eq_false_iff, Bool.and_eq_false_iff, decide_eq_false_iff_not, beq_eq_false_iff_ne]
  omega

theorem skipWhite_of_isAlnum {c : Char} {text : List Char} (h : isAlnum c = true) :
    skipWhite (c :: text) = c :: text := by
  rw [skipWhite, List.dropWhile_cons_of_neg (by simp [isSpace_of_isAlnum h])]

theorem scanIdentifier_append {name : String} {text : List Char} (h : IsIdentifier name)
    (hend : ∀ c ∈ text.head?, isAlnum c = false) :
    scanIdentifier (name.toList ++ text) = some (name, text) := by
  obtain ⟨c, cs, hname, hc, hcs⟩ := h
  have htake : text.takeWhile isAlnum = [] := by
    cases text with
    | nil => rfl
    | cons x text => exact List.takeWhile_cons_of_neg (by simp [hend x rfl])
  have hdrop : text.dropWhile isAlnum = text := by
    cases text with
    | nil => rfl
    | cons x text => exact List.dropWhile_cons_of_neg (by simp [hend x rfl])
  rw [hname, List.cons_append, scanIdentifier, if_pos hc, List.takeWhile_append_of_pos hcs,
    List.dropWhile_append_of_pos hcs, htake, hdrop, List.append_nil, ← hname, String.ofList_toList]

theorem skipWhite_identifier {name : String} {text : List Char} (h : IsIdentifier name) :
    skipWhite (name.toList ++ text) = name.toList ++ text := by
  obtain ⟨c, cs, hname, hc, -⟩ := h
  rw [hname, List.cons_append, skipWhite_of_isAlnum (isAlnum_of_isLetter hc)]

/-- Behind the bar. -/
theorem scanBar_line (text : List Char) : scanBar ("  | ".toList ++ text) = some (skipWhite text) := by
  have hbar : "  | ".toList = [' ', ' ', '|', ' '] := by decide
  have hskip : skipWhite ([' ', ' ', '|', ' '] ++ text) = '|' :: ' ' :: text := by simp [skipWhite, isSpace]
  rw [hbar, scanBar, hskip]
  simp [isSpace]

theorem statePattern_stateLine (s : PathwayState) : statePattern (stateLine s) = some (formalName s) := by
  have h := isIdentifier_formalName s
  have hscan := @scanIdentifier_append (formalName s) [] h (by simp)
  have hskip := @skipWhite_identifier (formalName s) [] h
  rw [List.append_nil] at hscan hskip
  rw [statePattern, stateLine, scanBar_line, hskip]
  simp only [Option.bind_eq_bind, Option.bind_some, hscan, List.all_nil, if_true]

theorem edgePattern_stateLine (s : PathwayState) : edgePattern (stateLine s) = none := by
  have h := isIdentifier_formalName s
  have hscan := @scanIdentifier_append (formalName s) [] h (by simp)
  have hskip := @skipWhite_identifier (formalName s) [] h
  rw [List.append_nil] at hscan hskip
  rw [edgePattern, stateLine, scanBar_line, hskip]
  simp only [Option.bind_eq_bind, Option.bind_some, hscan]
  rfl

/-- The edge a row names on its line. -/
def PlainRow.edge? : PlainRow → Option Edge
  | ⟨some source, some target, true⟩ => some (source, target)
  | _ => none

/-- A name between white space and punctuation. -/
theorem scanIdentifier_state (s : PathwayState) {text : List Char} (hend : ∀ c ∈ text.head?, isAlnum c = false) :
    scanIdentifier (skipWhite ((formalName s).toList ++ text)) = some (formalName s, text) := by
  rw [skipWhite_identifier (isIdentifier_formalName s), scanIdentifier_append (isIdentifier_formalName s) hend]

theorem edgePattern_line (row : PlainRow) :
    edgePattern row.line = row.edge?.map fun edge => (formalName edge.1, formalName edge.2) := by
  obtain ⟨source, target, value⟩ := row
  cases source with
  | none => rfl
  | some s =>
    have hsource : ∀ text, scanIdentifier (skipWhite ((formalName s).toList ++ (", ".toList ++ text))) =
        some (formalName s, ", ".toList ++ text) := fun text =>
      scanIdentifier_state s fun c hc => by
        obtain rfl := Option.some.inj hc
        rfl
    have hcomma : ∀ text, scanLiteral "," (", ".toList ++ text) = some (' ' :: text) := fun _ => rfl
    rw [edgePattern, PlainRow.line, scanBar_line, patternText]
    simp only [Option.bind_eq_bind, Option.bind_some, hsource, hcomma]
    cases target with
    | none => rfl
    | some t =>
      have htarget : scanIdentifier (skipWhite (' ' :: ((formalName t).toList ++ (" => ".toList ++ valueText value)))) =
          some (formalName t, " => ".toList ++ valueText value) :=
        scanIdentifier_state t fun c hc => by
          obtain rfl := Option.some.inj hc
          rfl
      have hmaps : ∀ text, scanLiteral "=>" (skipWhite (" => ".toList ++ text)) = some (' ' :: text) := fun _ => rfl
      simp only [patternText, htarget, Option.bind_some, hmaps]
      cases value <;> rfl

/-! ## The loop over the lines -/

theorem endsStates_stateLine (s : PathwayState) : endsStates (stateLine s) = false := by
  cases s <;> decide

theorem readState_stateLine (states : Finset PathwayState) (s : PathwayState) :
    readState states (stateLine s) = .ok (insert s states) := by
  simp only [readState, statePattern_stateLine, lookup_formalName]

theorem readEdge_line (edges : Finset Edge) (row : PlainRow) :
    readEdge edges row.line = .ok (row.edge?.toFinset ∪ edges) := by
  rw [readEdge, edgePattern_line]
  cases row.edge? with
  | none => simp
  | some edge => simp [lookup_formalName]

theorem parseLines_states (l : List PathwayState) (states : Finset PathwayState) (edges : Finset Edge)
    (rest : List (List Char)) :
    parseLines true states edges (l.map stateLine ++ rest) = parseLines true (l.toFinset ∪ states) edges rest := by
  induction l generalizing states with
  | nil => simp
  | cons s l ih =>
    have hstart : startsStates (stateLine s) = false := rfl
    have hedge : readEdge edges (stateLine s) = .ok edges := by rw [readEdge, edgePattern_stateLine]
    have hunion : l.toFinset ∪ insert s states = (s :: l).toFinset ∪ states := by
      rw [List.toFinset_cons, Finset.union_insert, Finset.insert_union]
    rw [List.map_cons, List.cons_append, parseLines, if_neg (by simp [hstart]),
      if_neg (by simp [endsStates_stateLine]), if_pos rfl, readState_stateLine, hedge, ← hunion]
    exact ih (insert s states)

theorem parseLines_rows (rows : List PlainRow) (states : Finset PathwayState) (edges : Finset Edge) :
    parseLines false states edges (rows.map PlainRow.line) =
      .ok (states, (rows.filterMap PlainRow.edge?).toFinset ∪ edges) := by
  induction rows generalizing edges with
  | nil => simp [parseLines]
  | cons row rows ih =>
    have hstart : startsStates row.line = false := rfl
    have hunion : (rows.filterMap PlainRow.edge?).toFinset ∪ (row.edge?.toFinset ∪ edges) =
        ((row :: rows).filterMap PlainRow.edge?).toFinset ∪ edges := by
      cases hrow : row.edge? with
      | none => simp [List.filterMap_cons_none hrow]
      | some edge => simp [List.filterMap_cons_some hrow, Finset.union_insert]
    rw [List.map_cons, parseLines, if_neg (by simp [hstart]), if_neg (by simp), ← hunion]
    rw [if_neg Bool.false_ne_true, readEdge_line]
    exact ih (row.edge?.toFinset ∪ edges)

/-- The lines between the states and the rows. -/
theorem parseLines_openLines (states : Finset PathwayState) (edges : Finset Edge) (rest : List (List Char)) :
    parseLines true states edges (openLines ++ rest) = parseLines false states edges rest := rfl

/-- The characters of the layout. -/
def isPlainChar (c : Char) : Bool := isAlnum c || c ∈ [' ', '|', ',', '=', '>', ':', '→', '_']

def IsPlain (text : List Char) : Prop := ∀ c ∈ text, isPlainChar c = true

instance : DecidablePred IsPlain := fun _ => decidable_of_iff _ List.all_eq_true

theorem IsPlain.append {a b : List Char} (ha : IsPlain a) (hb : IsPlain b) : IsPlain (a ++ b) := fun c hc =>
  (List.mem_append.mp hc).elim (ha c) (hb c)

theorem IsPlain.isLine {line : List Char} (h : IsPlain line) : IsLine line := fun c hc => by
  have hplain := h c hc
  rw [isPlainChar, Bool.or_eq_true] at hplain
  rcases hplain with halnum | hmem
  · have := toNat_of_isAlnum halnum
    simp only [isLineBreak, List.mem_cons, List.not_mem_nil, or_false, decide_eq_false_iff_not]
    omega
  · simp only [List.mem_cons, List.not_mem_nil, or_false, decide_eq_true_eq] at hmem
    rcases hmem with rfl | rfl | rfl | rfl | rfl | rfl | rfl | rfl <;> decide

theorem isPlain_formalName (s : PathwayState) : IsPlain (formalName s).toList := fun c hc => by
  rw [isPlainChar, (isIdentifier_formalName s).alnum c hc, Bool.true_or]

theorem isPlain_patternText (pattern : Option PathwayState) : IsPlain (patternText pattern) := by
  cases pattern with
  | none => decide
  | some s => exact isPlain_formalName s

theorem PlainFile.isPlain (f : PlainFile) : ∀ line ∈ f.lines, IsPlain line := by
  have htext : ∀ text ∈ ["inductive PathwayState where", "  | ", ", ", " => ", "true", "false"],
      IsPlain text.toList := by decide
  have hopen : ∀ line ∈ openLines, IsPlain line := by decide
  have hstate : ∀ s, IsPlain (stateLine s) := fun s => (htext _ (by simp)).append (isPlain_formalName s)
  have hrow : ∀ row : PlainRow, IsPlain row.line := fun row => by
    have hvalue : IsPlain (valueText row.value) := by cases row.value <;> exact htext _ (by simp)
    exact (htext _ (by simp)).append ((isPlain_patternText _).append ((htext _ (by simp)).append
      ((isPlain_patternText _).append ((htext _ (by simp)).append hvalue))))
  rintro line (_ | ⟨_, hline⟩)
  · exact htext _ (by simp)
  · rcases List.mem_append.mp hline with hmem | hmem
    · obtain ⟨s, -, rfl⟩ := List.mem_map.mp hmem
      exact hstate s
    · rcases List.mem_append.mp hmem with hmem | hmem
      · exact hopen line hmem
      · obtain ⟨row, -, rfl⟩ := List.mem_map.mp hmem
        exact hrow row

theorem PlainFile.isLine (f : PlainFile) : ∀ line ∈ f.lines, IsLine line := fun line hline =>
  (f.isPlain line hline).isLine

/-- The text of lines is read back. -/
theorem readText_unlines {lines : List (List Char)} (h : ∀ line ∈ lines, IsLine line) :
    readText (encodeUtf8 (unlines lines)) = .ok (unlines lines) := by
  have hreturn : '\r' ∉ unlines lines := by
    intro hmem
    obtain ⟨line, hline, hc⟩ := List.mem_flatMap.mp hmem
    rcases List.mem_append.mp hc with hc | hc
    · exact absurd (h line hline _ hc) (by decide)
    · exact absurd hc (by decide)
  rw [readText, decodeBody, decodeUtf8_encodeUtf8]
  exact congrArg Except.ok (universalNewlines_of_notMem hreturn)

namespace PlainFile

/-- The edges of the true rows of two states. -/
def edges (f : PlainFile) : Finset Edge := (f.rows.filterMap PlainRow.edge?).toFinset

/-- The parser finds the states, and the edges of the true rows. -/
theorem parseLean_data (f : PlainFile) : parseLean f.data = .ok (f.states.toFinset, f.edges) := by
  have hstart : ∀ rest, parseLines false ∅ ∅ ("inductive PathwayState where".toList :: rest) =
      parseLines true ∅ ∅ rest := fun _ => rfl
  have hlines : parseLines false ∅ ∅ f.lines = .ok (f.states.toFinset, f.edges) := by
    rw [lines, hstart, parseLines_states, parseLines_openLines, parseLines_rows, Finset.union_empty,
      Finset.union_empty, edges]
  unfold parseLean
  rw [data, readText_unlines f.isLine, ← hlines]
  exact congrArg (parseLines false ∅ ∅) (splitlines_unlines f.isLine)

end PlainFile

end Rpr
