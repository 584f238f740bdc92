import PathwayRuntime.Parity.Plain

/-!
# The tokens of the plain layout

* `uncomment_of_notMem`: a text without `-` has no comments.
* `tokensFrom_line`, `tokensFrom_word`: the tokens of a text, line by line and word by word.
* `segments_append`: the tokens before a head stay together.
* **`PlainFile.ofBytes_data`**: a file in the plain layout reads as its states and rows.
-/

set_option autoImplicit false

namespace Rpr

/-! ## Characters -/

theorem uncomment_of_notMem {text : List Char} (h : '-' ∉ text) : uncomment .code text = some text := by
  induction text with
  | nil => rfl
  | cons c text ih =>
    have htext : '-' ∉ text := fun hmem => h (List.mem_cons_of_mem c hmem)
    have hne : c ≠ '-' := fun heq => h (heq ▸ List.mem_cons_self)
    rw [uncomment, ih htext, Option.map_some]
    · exact fun _ heq => absurd heq hne
    · rintro _ rest rfl rfl
      exact absurd List.mem_cons_self htext
    · rintro rfl rfl
      exact absurd List.mem_cons_self htext

theorem tokensFrom_cons {word text : List Char} {c : Char} (h : c ∉ ['=', '-', '\r'])
    (hcolon : ∀ rest, c = ':' → text ≠ '=' :: rest) :
    tokensFrom word (c :: text) =
      if isNameChar c then tokensFrom (c :: word) text
      else if c = ' ' ∨ c = '\n' then (tokensFrom [] text).map fun rest => endWord word ++ rest
      else match symbol c with
        | some token => (tokensFrom [] text).map fun rest => endWord word ++ token :: rest
        | none => none := by
  simp only [List.mem_cons, List.not_mem_nil, or_false, not_or] at h
  rw [tokensFrom]
  all_goals first
    | rfl
    | exact fun _ heq => absurd heq h.1
    | exact fun _ heq => absurd heq h.2.1
    | exact fun _ heq => absurd heq h.2.2
    | exact hcolon

theorem tokensFrom_cons_nameChar {word text : List Char} {c : Char} (h : isNameChar c = true) :
    tokensFrom word (c :: text) = tokensFrom (c :: word) text := by
  have hsingle : c ∉ ['=', '-', '\r'] := by
    simp only [List.mem_cons, List.not_mem_nil, or_false]
    rintro (rfl | rfl | rfl) <;> exact absurd h (by decide)
  rw [tokensFrom_cons hsingle fun _ heq => absurd h (heq ▸ by decide), if_pos h]

/-- A line ends its last word. -/
theorem tokensFrom_line {word line text : List Char} {a : List Token} (h : tokensFrom word line = some a) :
    tokensFrom word (line ++ '\n' :: text) = (tokensFrom [] text).map (a ++ ·) := by
  have hmap : ∀ {before rest : List Token} {x : Option (List Token)},
      (x.map (rest ++ ·)).map (before ++ ·) = x.map ((before ++ rest) ++ ·) := by
    intro before rest x
    simp [Option.map_map, Function.comp_def]
  fun_induction tokensFrom word line generalizing a with
  | case1 word =>
    obtain rfl := Option.some.inj h
    rfl
  | case2 word line ih =>
    obtain ⟨rest, hrest, rfl⟩ := Option.map_eq_some_iff.mp h
    rw [List.cons_append, List.cons_append, tokensFrom, ih hrest, Option.map_map]
    exact congrArg (Option.map · _) (funext fun _ => by simp)
  | case3 word line ih =>
    obtain ⟨rest, hrest, rfl⟩ := Option.map_eq_some_iff.mp h
    rw [List.cons_append, List.cons_append, tokensFrom, ih hrest, Option.map_map]
    exact congrArg (Option.map · _) (funext fun _ => by simp)
  | case4 word line ih =>
    obtain ⟨rest, hrest, rfl⟩ := Option.map_eq_some_iff.mp h
    rw [List.cons_append, List.cons_append, tokensFrom, ih hrest, Option.map_map]
    exact congrArg (Option.map · _) (funext fun _ => by simp)
  | case5 word line ih =>
    obtain ⟨rest, hrest, rfl⟩ := Option.map_eq_some_iff.mp h
    rw [List.cons_append, List.cons_append, tokensFrom, ih hrest, hmap]
  | case6 word c line _ _ _ _ hc ih => rw [List.cons_append, tokensFrom_cons_nameChar hc, ih h]
  | case7 word c line _ _ _ _ hc hblank ih =>
    obtain ⟨rest, hrest, rfl⟩ := Option.map_eq_some_iff.mp h
    have hsingle : c ∉ ['=', '-', '\r'] := by rcases hblank with rfl | rfl <;> decide
    have hcolon : ∀ rest, c = ':' → line ++ '\n' :: text ≠ '=' :: rest := by rcases hblank with rfl | rfl <;> simp
    rw [List.cons_append, tokensFrom_cons hsingle hcolon, if_neg hc, if_pos hblank, ih hrest, hmap]
  | case8 word c line _ _ hassign _ hc hblank token htoken ih =>
    obtain ⟨rest, hrest, rfl⟩ := Option.map_eq_some_iff.mp h
    have hsingle : c ∉ ['=', '-', '\r'] := by
      simp only [List.mem_cons, List.not_mem_nil, or_false]
      rintro (rfl | rfl | rfl) <;> exact absurd htoken (by simp [symbol])
    have hcolon : ∀ rest, c = ':' → line ++ '\n' :: text ≠ '=' :: rest := by
      intro rest hc heq
      cases line with
      | nil => exact absurd (List.cons.inj heq).1 (by decide)
      | cons x line => exact hassign line hc (by rw [(List.cons.inj heq).1])
    rw [List.cons_append, tokensFrom_cons hsingle hcolon, if_neg hc, if_neg hblank, htoken]
    simp only [ih hrest, Option.map_map]
    exact congrArg (Option.map · _) (funext fun _ => by simp)
  | case9 => exact (nomatch h)

theorem isNameChar_of_isAlnum {c : Char} (h : isAlnum c = true) : isNameChar c = true := by
  have hrange := toNat_of_isAlnum h
  have halnum : c.isAlpha = true ∨ c.isDigit = true := by
    have hbounds {p q : Prop} [Decidable p] [Decidable q] (h : p ∧ q) : (decide p && decide q) = true :=
      Bool.and_eq_true_iff.mpr ⟨decide_eq_true h.1, decide_eq_true h.2⟩
    rcases hrange with hdigit | hupper | hlower
    · exact .inr (hbounds hdigit)
    · exact .inl (Bool.or_eq_true_iff.mpr (.inl (decide_eq_true hupper)))
    · exact .inl (Bool.or_eq_true_iff.mpr (.inr (hbounds (p := c.val ≥ 97) (q := c.val ≤ 122) hlower)))
  rw [isNameChar, startsName]
  rcases halnum with h | h <;> simp [h]

/-- The characters of a word. -/
theorem tokensFrom_word {before word text : List Char}
    (h : ∀ c ∈ word, isNameChar c = true) :
    tokensFrom before (word ++ text) = tokensFrom (word.reverse ++ before) text := by
  induction word generalizing before with
  | nil => rfl
  | cons c word ih =>
    have hc : isNameChar c = true := h c List.mem_cons_self
    rw [List.cons_append, tokensFrom_cons_nameChar hc, ih fun x hx => h x (List.mem_cons_of_mem c hx),
      List.reverse_cons, List.append_assoc, List.singleton_append]

theorem endWord_reverse {name : String} (hname : name ≠ "") (hkeyword : keywords.lookup name = none) :
    endWord name.toList.reverse = [.word name] := by
  cases hrev : name.toList.reverse with
  | nil => exact absurd (String.toList_eq_nil_iff.mp (List.reverse_eq_nil_iff.mp hrev)) hname
  | cons c word =>
    have hback : String.ofList (c :: word).reverse = name := by
      rw [← hrev, List.reverse_reverse, String.ofList_toList]
    simp only [endWord, hback, hkeyword]

/-! ## The lines -/

/-- The word of a pattern. -/
def patternName : Option PathwayState → String
  | some s => formalName s
  | none => "_"

/-- The name of a state, or a wildcard, is one word. -/
theorem tokensFrom_pattern (pattern : Option PathwayState) {text : List Char} {rest : List Token}
    (h : ∀ word, tokensFrom word text = some (endWord word ++ rest)) :
    tokensFrom [] (patternText pattern ++ text) = some (.word (patternName pattern) :: rest) := by
  cases pattern with
  | none => exact h ['_']
  | some s =>
    have hname := isIdentifier_formalName s
    have hne : formalName s ≠ "" := by
      obtain ⟨c, cs, hlist, -⟩ := hname
      rintro hempty
      rw [hempty] at hlist
      exact (nomatch hlist)
    have hkeyword : keywords.lookup (formalName s) = none := by cases s <;> decide
    rw [patternText, tokensFrom_word fun c hc => isNameChar_of_isAlnum (hname.alnum c hc), h, List.append_nil,
      endWord_reverse hne hkeyword]
    rfl

/-- Behind the bar. -/
theorem tokensFrom_bar {text : List Char} {rest : List Token} (h : tokensFrom [] text = some rest) :
    tokensFrom [] ("  | ".toList ++ text) = some (.bar :: rest) := by
  have hbar : tokensFrom [] ("  | ".toList ++ text) =
      ((((tokensFrom [] text).map (endWord [] ++ ·)).map (endWord [] ++ .bar :: ·)).map (endWord [] ++ ·)).map
        (endWord [] ++ ·) := rfl
  rw [hbar, h]
  rfl

def stateTokens (s : PathwayState) : List Token := [.bar, .word (formalName s)]

def valueKeyword (value : Bool) : Keyword := if value then .trueWord else .falseWord

def PlainRow.tokens (row : PlainRow) : List Token :=
  [.bar, .word (patternName row.source), .comma, .word (patternName row.target), .maps,
    .keyword (valueKeyword row.value)]

def openTokens : List Token :=
  [.keyword .derivingWord, .word "DecidableEq", .keyword .openWord, .word "PathwayState", .keyword .defWord,
    .word "allowed", .colon, .word "PathwayState", .arrow, .word "PathwayState", .arrow, .word "Bool"]

theorem tokensFrom_stateLine (s : PathwayState) : tokensFrom [] (stateLine s) = some (stateTokens s) := by
  have hname := @tokensFrom_pattern (some s) [] [] fun word => by simp [tokensFrom]
  rw [List.append_nil] at hname
  exact tokensFrom_bar hname

theorem tokensFrom_rowLine (row : PlainRow) : tokensFrom [] row.line = some row.tokens := by
  have hvalue : ∀ word, tokensFrom word (" => ".toList ++ valueText row.value) =
      some (endWord word ++ [.maps, .keyword (valueKeyword row.value)]) := fun word => by
    cases row.value <;> rfl
  have htarget := tokensFrom_pattern row.target hvalue
  have hcomma : ∀ word, tokensFrom word (", ".toList ++ (patternText row.target ++
      (" => ".toList ++ valueText row.value))) =
      some (endWord word ++ (.comma :: .word (patternName row.target) ::
        [.maps, .keyword (valueKeyword row.value)])) := fun word => by
    have hstep : ∀ text, tokensFrom word (", ".toList ++ text) =
        ((tokensFrom [] text).map (endWord [] ++ ·)).map (endWord word ++ .comma :: ·) := fun _ => rfl
    rw [hstep, htarget]
    rfl
  exact tokensFrom_bar (tokensFrom_pattern row.source hcomma)

/-- Lines have the tokens of each in turn. -/
theorem tokensFrom_lines {α : Type} {line : α → List Char} {lineTokens : α → List Token}
    (h : ∀ a, tokensFrom [] (line a) = some (lineTokens a)) (items : List α) {text : List Char} {rest : List Token}
    (htext : tokensFrom [] text = some rest) :
    tokensFrom [] (unlines (items.map line) ++ text) = some (items.flatMap lineTokens ++ rest) := by
  induction items with
  | nil => exact htext
  | cons a items ih =>
    have hunlines : unlines ((a :: items).map line) ++ text =
        line a ++ '\n' :: (unlines (items.map line) ++ text) := by simp [unlines]
    rw [hunlines, tokensFrom_line (h a), ih, Option.map_some, List.flatMap_cons, List.append_assoc]

theorem tokensFrom_openLines (text : List Char) :
    tokensFrom [] (unlines openLines ++ text) = (tokensFrom [] text).map (openTokens ++ ·) := by
  have hlines : unlines openLines ++ text =
      "  deriving DecidableEq".toList ++ '\n' :: ("open PathwayState".toList ++ '\n' ::
        ("def allowed : PathwayState → PathwayState → Bool".toList ++ '\n' :: text)) := rfl
  have hderiving : tokensFrom [] "  deriving DecidableEq".toList =
      some [.keyword .derivingWord, .word "DecidableEq"] := by decide
  have hopen : tokensFrom [] "open PathwayState".toList = some [.keyword .openWord, .word "PathwayState"] := by
    decide
  have hdef : tokensFrom [] "def allowed : PathwayState → PathwayState → Bool".toList =
      some [.keyword .defWord, .word "allowed", .colon, .word "PathwayState", .arrow, .word "PathwayState", .arrow,
        .word "Bool"] := by decide
  rw [hlines, tokensFrom_line hderiving, tokensFrom_line hopen, tokensFrom_line hdef, Option.map_map, Option.map_map]
  rfl

namespace PlainFile

def tokens (f : PlainFile) : List Token :=
  .keyword .inductiveWord :: .word "PathwayState" :: .keyword .whereWord ::
    (f.states.flatMap stateTokens ++ (openTokens ++ f.rows.flatMap PlainRow.tokens))

theorem tokens_lines (f : PlainFile) : Rpr.tokens (unlines f.lines) = some f.tokens := by
  have hdash : '-' ∉ unlines f.lines := by
    intro hmem
    obtain ⟨line, hline, hc⟩ := List.mem_flatMap.mp hmem
    rcases List.mem_append.mp hc with hc | hc
    · exact absurd (f.isPlain line hline _ hc) (by decide)
    · exact absurd hc (by decide)
  have hrows := tokensFrom_lines tokensFrom_rowLine f.rows (show tokensFrom [] [] = some [] from rfl)
  have hstates := tokensFrom_lines tokensFrom_stateLine f.states
    (show tokensFrom [] (unlines openLines ++ (unlines (f.rows.map PlainRow.line) ++ [])) = some _ by
      rw [tokensFrom_openLines, hrows, Option.map_some])
  have hfirst : tokensFrom [] "inductive PathwayState where".toList =
      some [.keyword .inductiveWord, .word "PathwayState", .keyword .whereWord] := by decide
  have hlines : unlines f.lines = "inductive PathwayState where".toList ++ '\n' ::
      (unlines (f.states.map stateLine) ++ (unlines openLines ++ (unlines (f.rows.map PlainRow.line) ++ []))) := by
    simp [lines, unlines]
  rw [Rpr.tokens, uncomment_of_notMem hdash, Option.bind_eq_bind, Option.bind_some, hlines, tokensFrom_line hfirst,
    hstates, Option.map_some, List.append_nil]
  rfl

end PlainFile

/-! ## Segments -/

theorem segments_head {isHead : Token → Bool} {token : Token} (rest : List Token) (h : isHead token = true) :
    segments isHead (token :: rest) = ([], (token, (segments isHead rest).1) :: (segments isHead rest).2) := by
  rw [segments]
  exact if_pos h

theorem segments_append {isHead : Token → Bool} {body : List Token} (rest : List Token)
    (h : ∀ token ∈ body, isHead token = false) :
    segments isHead (body ++ rest) = (body ++ (segments isHead rest).1, (segments isHead rest).2) := by
  induction body with
  | nil => rfl
  | cons token body ih =>
    have htoken : ¬ isHead token = true := by simp [h token List.mem_cons_self]
    rw [List.cons_append, segments, ih fun t ht => h t (List.mem_cons_of_mem token ht)]
    exact if_neg htoken

/-- Parts, each from its head on. -/
theorem segments_parts {isHead : Token → Bool} {parts : List (Token × List Token)}
    (hhead : ∀ part ∈ parts, isHead part.1 = true) (hbody : ∀ part ∈ parts, ∀ token ∈ part.2, isHead token = false) :
    segments isHead (parts.flatMap fun part => part.1 :: part.2) = ([], parts) := by
  induction parts with
  | nil => rfl
  | cons part parts ih =>
    have hrest := ih (fun p hp => hhead p (List.mem_cons_of_mem part hp))
      (fun p hp => hbody p (List.mem_cons_of_mem part hp))
    rw [List.flatMap_cons, List.cons_append, segments_head _ (hhead part List.mem_cons_self),
      segments_append _ (hbody part List.mem_cons_self), hrest, List.append_nil]

/-! ## The commands -/

theorem isAtomic_formalName (s : PathwayState) : isAtomic (formalName s) = true := by
  cases s <;> decide

def statePart (s : PathwayState) : Token × List Token := (.bar, [.word (formalName s)])

def PlainRow.part (row : PlainRow) : Token × List Token :=
  (.bar, [.word (patternName row.source), .comma, .word (patternName row.target), .maps,
    .keyword (valueKeyword row.value)])

def PlainRow.names (row : PlainRow) : List String × Bool :=
  ([patternName row.source, patternName row.target], row.value)

theorem readConstructors_states (states : List PathwayState) :
    readConstructors (states.map statePart ++ [(.keyword .derivingWord, [.word "DecidableEq"])]) =
      some (states.map formalName) := by
  induction states with
  | nil => rfl
  | cons s states ih =>
    rw [List.map_cons, List.cons_append, statePart, readConstructors, if_pos (isAtomic_formalName s), ih]
    rfl

theorem readRows_rows (rows : List PlainRow) : readRows (rows.map PlainRow.part) = some (rows.map PlainRow.names) := by
  induction rows with
  | nil => rfl
  | cons row rows ih =>
    have hrow : readRow row.part.2 = some (row.names.1, some row.value) := by
      obtain ⟨source, target, value⟩ := row
      cases value <;> rfl
    rw [List.map_cons, readRows, hrow, ih]
    rfl

def derivingPart : Token × List Token := (.keyword .derivingWord, [.word "DecidableEq"])

theorem readStates_plain (states : List PathwayState) :
    readStates (.word "PathwayState" :: .keyword .whereWord :: (states.flatMap stateTokens ++
      [.keyword .derivingWord, .word "DecidableEq"])) = some (states.map formalName) := by
  have hparts : states.flatMap stateTokens ++ [.keyword .derivingWord, .word "DecidableEq"] =
      (states.map statePart ++ [derivingPart]).flatMap fun part => part.1 :: part.2 := by
    rw [List.flatMap_append, List.flatMap_map]
    rfl
  have hpart : ∀ part ∈ states.map statePart ++ [derivingPart], startsConstructor part.1 = true ∧
      ∀ token ∈ part.2, startsConstructor token = false := by
    intro part hmem
    rcases List.mem_append.mp hmem with hmem | hmem
    · obtain ⟨s, -, rfl⟩ := List.mem_map.mp hmem
      exact ⟨rfl, fun token htoken => by obtain rfl := List.mem_singleton.mp htoken; rfl⟩
    · obtain rfl := List.mem_singleton.mp hmem
      exact ⟨rfl, fun token htoken => by obtain rfl := List.mem_singleton.mp htoken; rfl⟩
  have hsegments := segments_parts (fun part hmem => (hpart part hmem).1) fun part hmem => (hpart part hmem).2
  have hbody : segments startsConstructor (.word "PathwayState" :: .keyword .whereWord ::
      (states.map statePart ++ [derivingPart]).flatMap fun part => part.1 :: part.2) =
      ([.word "PathwayState", .keyword .whereWord], states.map statePart ++ [derivingPart]) := by
    have hfirst := @segments_append startsConstructor [.word "PathwayState", .keyword .whereWord]
      ((states.map statePart ++ [derivingPart]).flatMap fun part => part.1 :: part.2) (by decide)
    rwa [hsegments] at hfirst
  rw [hparts, readStates, hbody]
  exact readConstructors_states states

/-- The type of the function. -/
def signature : List Token :=
  [.word "allowed", .colon, .word "PathwayState", .arrow, .word "PathwayState", .arrow, .word "Bool"]

theorem readFunction_plain (rows : List PlainRow) :
    readFunction (.keyword .defWord, signature ++ rows.flatMap PlainRow.tokens) =
      some ⟨[], 2, rows.map PlainRow.names⟩ := by
  have hparts : rows.flatMap PlainRow.tokens = (rows.map PlainRow.part).flatMap fun part => part.1 :: part.2 := by
    rw [List.flatMap_map]
    rfl
  have hsegments := @segments_parts startsRow (rows.map PlainRow.part) (by simp [PlainRow.part, startsRow])
    (by simp [PlainRow.part, startsRow])
  have hbody : segments startsRow (signature ++ rows.flatMap PlainRow.tokens) =
      (signature, rows.map PlainRow.part) := by
    rw [segments_append _ (by decide), hparts, hsegments, List.append_nil]
  have harity : ((rows.map PlainRow.names).all fun row => row.1.length = 2) = true := by
    simp [PlainRow.names]
  have hread : readFunction (.keyword .defWord, signature ++ rows.flatMap PlainRow.tokens) = (do
      let read ← readHead (signature.drop 1)
      let rows ← readRows (rows.map PlainRow.part)
      if rows.all fun row => row.1.length = read.2 then some ⟨read.1, read.2, rows⟩ else none) := by
    rw [readFunction, hbody]
    rfl
  have hhead : readHead (signature.drop 1) = some ([], 2) := by decide
  rw [hread, hhead, readRows_rows]
  exact if_pos harity

/-! ## The file -/

def toPattern : Option PathwayState → StatePattern
  | some s => .state (formalName s)
  | none => .any

def PlainRow.clause (row : PlainRow) : Clause := ⟨toPattern row.source, toPattern row.target, row.value⟩

/-- Names of states are in no namespace. -/
theorem formalName_ne_append (s : PathwayState) {before : String} (h : '.' ∈ before.toList) (name : String) :
    formalName s ≠ before ++ name := by
  intro heq
  have hdot : '.' ∈ (formalName s).toList := by
    rw [heq, String.toList_append]
    exact List.mem_append_left _ h
  exact absurd ((isIdentifier_formalName s).alnum '.' hdot) (by decide)

theorem readPattern_patternName {states : List PathwayState} {pattern : Option PathwayState}
    (h : ∀ s, pattern = some s → s ∈ states) :
    readPattern (states.map formalName) true (patternName pattern) = some (toPattern pattern) := by
  cases pattern with
  | none => rfl
  | some s =>
    have hwild : formalName s ≠ "_" := by cases s <;> decide
    have hcovers : ∀ c, (formalName s = "PathwayState." ++ c || formalName s = "." ++ c ||
        true && formalName s = c) = true ↔ formalName s = c := fun c => by
      have hqualified := @formalName_ne_append s "PathwayState." (by decide) c
      have hdotted := @formalName_ne_append s "." (by decide) c
      simp [hqualified, hdotted]
    have hfind : (states.map formalName).find? (fun c => formalName s = "PathwayState." ++ c ||
        formalName s = "." ++ c || true && formalName s = c) = some (formalName s) := by
      cases hfound : (states.map formalName).find? (fun c => formalName s = "PathwayState." ++ c ||
          formalName s = "." ++ c || true && formalName s = c) with
      | none =>
        have hnone := List.find?_eq_none.mp hfound (formalName s) (List.mem_map_of_mem (h s rfl))
        exact absurd ((hcovers (formalName s)).mpr rfl) hnone
      | some c =>
        have hc := List.find?_some hfound
        rw [(hcovers c).mp hc]
    rw [patternName, readPattern, if_neg hwild, hfind]
    rfl

namespace PlainFile

variable (f : PlainFile)

/-- The constructors and the clauses of the file. -/
def file : StateFile :=
  ⟨f.states.map formalName, f.rows.map PlainRow.clause, f.nodup.map formalName_injective⟩

/-- Every row is a clause. -/
theorem mapM_readClause : (f.rows.map PlainRow.names).mapM (readClause (f.states.map formalName) true) =
    some (f.rows.map PlainRow.clause) := by
  have hrow : ∀ row ∈ f.rows, readClause (f.states.map formalName) true row.names = some row.clause := by
    intro row hmem
    have hsource := readPattern_patternName fun s hs => f.declared row hmem s (.inl hs)
    have htarget := readPattern_patternName fun s hs => f.declared row hmem s (.inr hs)
    rw [PlainRow.names, readClause, hsource, htarget]
    rfl
  revert hrow
  induction f.rows with
  | nil => exact fun _ => rfl
  | cons row rows ih =>
    intro hrow
    rw [List.map_cons, List.mapM_cons, hrow row List.mem_cons_self,
      ih fun r hr => hrow r (List.mem_cons_of_mem row hr)]
    rfl

def commands : List (Token × List Token) :=
  [(.keyword .inductiveWord, .word "PathwayState" :: .keyword .whereWord :: (f.states.flatMap stateTokens ++
      [.keyword .derivingWord, .word "DecidableEq"])),
    (.keyword .openWord, [.word "PathwayState"]),
    (.keyword .defWord, signature ++ f.rows.flatMap PlainRow.tokens)]

theorem segments_tokens : segments startsCommand f.tokens = ([], f.commands) := by
  have htokens : f.tokens = f.commands.flatMap fun part => part.1 :: part.2 := by
    simp [tokens, commands, openTokens, signature]
  have hstates : ∀ token ∈ f.states.flatMap stateTokens, startsCommand token = false := by
    intro token hmem
    obtain ⟨s, -, htoken⟩ := List.mem_flatMap.mp hmem
    simp only [stateTokens, List.mem_cons, List.not_mem_nil, or_false] at htoken
    rcases htoken with rfl | rfl <;> rfl
  have hrows : ∀ token ∈ f.rows.flatMap PlainRow.tokens, startsCommand token = false := by
    intro token hmem
    obtain ⟨⟨source, target, value⟩, -, htoken⟩ := List.mem_flatMap.mp hmem
    simp only [PlainRow.tokens, List.mem_cons, List.not_mem_nil, or_false] at htoken
    rcases htoken with rfl | rfl | rfl | rfl | rfl | rfl
    all_goals first | rfl | (cases value <;> rfl)
  rw [htokens]
  refine segments_parts (by simp [commands, startsCommand]) fun part hpart token htoken => ?_
  simp only [commands, List.mem_cons, List.not_mem_nil, or_false] at hpart
  rcases hpart with rfl | rfl | rfl
  · simp only [List.mem_cons, List.mem_append, List.not_mem_nil, or_false] at htoken
    rcases htoken with rfl | rfl | hmem | rfl | rfl
    · rfl
    · rfl
    · exact hstates token hmem
    · rfl
    · rfl
  · obtain rfl := List.mem_singleton.mp htoken
    rfl
  · rcases List.mem_append.mp htoken with hmem | hmem
    · exact (by decide : ∀ token ∈ signature, startsCommand token = false) token hmem
    · exact hrows token hmem

/-- **A file in the plain layout reads as its states and rows.** -/
theorem ofBytes_data : StateFile.ofBytes f.data = some f.file := by
  have hcommands : StateFile.ofCommands (dropNamespace f.commands) = some f.file := by
    have hfunctions : [(Token.keyword .defWord, signature ++ f.rows.flatMap PlainRow.tokens)].mapM readFunction =
        some [⟨[], 2, f.rows.map PlainRow.names⟩] := by
      rw [List.mapM_cons, readFunction_plain]
      rfl
    have hdrop : dropNamespace f.commands = f.commands := rfl
    have hopen : readOpen [(.keyword .openWord, [.word "PathwayState"]),
        (.keyword .defWord, signature ++ f.rows.flatMap PlainRow.tokens)] =
        (true, [(.keyword .defWord, signature ++ f.rows.flatMap PlainRow.tokens)]) := rfl
    have hfilter : [(⟨[], 2, f.rows.map PlainRow.names⟩ : StateFunction)].filter (fun g => g.arity = 2) =
        [⟨[], 2, f.rows.map PlainRow.names⟩] := rfl
    rw [hdrop, commands, StateFile.ofCommands, readStates_plain, hopen]
    simp only [Option.bind_eq_bind, Option.bind_some, hfunctions, hfilter, f.mapM_readClause]
    exact dif_pos (f.nodup.map formalName_injective)
  rw [StateFile.ofBytes, data, decodeUtf8_encodeUtf8, Option.bind_some, StateFile.ofText, tokens_lines]
  simp only [Option.bind_eq_bind, Option.bind_some, segments_tokens, hcommands]

end PlainFile

end Rpr
