import Mathlib.Data.List.Basic
import PathwayRuntime.Parity.FirstMatch
import PathwayRuntime.Python.Utf8

/-!
# What a formal state file means

A file that declares `PathwayState` and a function of two states by clauses `| source, target => true`, as defining
equations or as a `match` on its parameters, between comments. What it means is read off its tokens, whatever its
layout.

* `uncomment`, `tokens`: the text without comments, and its tokens.
* `StateFile`: the constructors, and the clauses in order.
* `StateFile.ofText`: the file a text reads as; predicates of one state may stand beside the function.
* `StateFile.eval`: the function, by the first clause that covers both states.
-/

set_option autoImplicit false

namespace Rpr

open FirstMatch

/-! ## Comments -/

/-- Where a character stands. -/
inductive Place : Type
  | code
  | line
  | block (depth : ℕ)

/-- The text without its comments; comments in blocks nest. The character behind the opening of a block is skipped with
it: `/--/` opens a block and does not close it. -/
def uncomment : Place → List Char → Option (List Char)
  | .code, [] => some []
  | .code, '-' :: '-' :: text => uncomment .line text
  | .code, '/' :: '-' :: _ :: text => (uncomment (.block 0) text).map (' ' :: ·)
  | .code, ['/', '-'] => none
  | .code, c :: text => (uncomment .code text).map (c :: ·)
  | .line, [] => some []
  | .line, c :: text => if c = '\n' then (uncomment .code text).map (c :: ·) else uncomment .line text
  | .block _, [] => none
  | .block 0, '-' :: '/' :: text => uncomment .code text
  | .block (depth + 1), '-' :: '/' :: text => uncomment (.block depth) text
  | .block depth, '/' :: '-' :: text => uncomment (.block (depth + 1)) text
  | .block depth, _ :: text => uncomment (.block depth) text

/-! ## Tokens -/

/-- The words that are no names. -/
inductive Keyword : Type
  | namespaceWord
  | endWord
  | inductiveWord
  | whereWord
  | derivingWord
  | openWord
  | defWord
  | funWord
  | matchWord
  | withWord
  | trueWord
  | falseWord
  deriving DecidableEq

def keywords : List (String × Keyword) :=
  [("namespace", .namespaceWord), ("end", .endWord), ("inductive", .inductiveWord), ("where", .whereWord),
    ("deriving", .derivingWord), ("open", .openWord), ("def", .defWord), ("fun", .funWord), ("match", .matchWord),
    ("with", .withWord), ("true", .trueWord), ("false", .falseWord)]

inductive Token : Type
  | word (name : String)
  | keyword (k : Keyword)
  | bar
  | comma
  | colon
  | opening
  | closing
  | arrow
  | maps
  | assign
  deriving DecidableEq

/-- Letters and subscripts beyond ASCII. -/
def letterRanges : List (ℕ × ℕ) :=
  [(0xC0, 0xD6), (0xD8, 0xF6), (0xF8, 0x17F), (0x391, 0x39F), (0x3A1, 0x3A2), (0x3A4, 0x3A9), (0x3B1, 0x3BA),
    (0x3BC, 0x3FB), (0x1F00, 0x1FFE), (0x2100, 0x214F), (0x1D49C, 0x1D59F)]

def subscriptRanges : List (ℕ × ℕ) := [(0x2080, 0x2089), (0x2090, 0x209C), (0x1D62, 0x1D6A), (0x2C7C, 0x2C7C)]

def inRanges (ranges : List (ℕ × ℕ)) (c : Char) : Bool :=
  ranges.any fun range => range.1 ≤ c.toNat && c.toNat ≤ range.2

/-- A name starts so. -/
def startsName (c : Char) : Bool := c.isAlpha || c == '_' || inRanges letterRanges c

/-- A name, or a name in a namespace, goes on so. -/
def isNameChar (c : Char) : Bool :=
  startsName c || c.isDigit || c ∈ ['\'', '!', '?', '.'] || inRanges subscriptRanges c

def symbol : Char → Option Token
  | '|' => some .bar
  | ',' => some .comma
  | ':' => some .colon
  | '(' => some .opening
  | ')' => some .closing
  | '→' => some .arrow
  | _ => none

/-- The word that ends here, from its characters in reverse. -/
def endWord : List Char → List Token
  | [] => []
  | c :: word =>
    match keywords.lookup (String.ofList (c :: word).reverse) with
    | some k => [.keyword k]
    | none => [.word (String.ofList (c :: word).reverse)]

/-- The tokens of a text behind the characters of a word. -/
def tokensFrom : List Char → List Char → Option (List Token)
  | word, [] => some (endWord word)
  | word, '=' :: '>' :: text => (tokensFrom [] text).map fun rest => endWord word ++ Token.maps :: rest
  | word, '-' :: '>' :: text => (tokensFrom [] text).map fun rest => endWord word ++ Token.arrow :: rest
  | word, ':' :: '=' :: text => (tokensFrom [] text).map fun rest => endWord word ++ Token.assign :: rest
  | word, '\r' :: '\n' :: text => (tokensFrom [] text).map fun rest => endWord word ++ rest
  | word, c :: text =>
    if isNameChar c then tokensFrom (c :: word) text
    else if c = ' ' ∨ c = '\n' then (tokensFrom [] text).map fun rest => endWord word ++ rest
    else match symbol c with
      | some token => (tokensFrom [] text).map fun rest => endWord word ++ token :: rest
      | none => none

/-- The tokens of a text. -/
def tokens (text : List Char) : Option (List Token) := do tokensFrom [] (← uncomment .code text)

/-! ## Segments -/

/-- The tokens before the first head, and each head with the tokens up to the next. -/
def segments (isHead : Token → Bool) : List Token → List Token × List (Token × List Token)
  | [] => ([], [])
  | token :: rest =>
    let (before, parts) := segments isHead rest
    if isHead token then ([], (token, before) :: parts) else (token :: before, parts)

/-- The words that start a command. -/
def startsCommand (token : Token) : Bool :=
  token ∈ [.keyword .namespaceWord, .keyword .endWord, .keyword .inductiveWord, .keyword .openWord, .keyword .defWord]

def startsConstructor (token : Token) : Bool := token ∈ [.bar, .keyword .derivingWord]

def startsRow (token : Token) : Bool := token = .bar

/-! ## Commands -/

/-- A name in no namespace. -/
def isAtomic (name : String) : Bool :=
  match name.toList with
  | [] => false
  | c :: cs => startsName c && !(c :: cs).contains '.' && name != "_"

/-- The classes behind `deriving`. -/
def readClasses : List Token → Bool
  | [.word _] => true
  | .word _ :: .comma :: rest => readClasses rest
  | _ => false

/-- `| name`, over and over, then perhaps `deriving`. -/
def readConstructors : List (Token × List Token) → Option (List String)
  | [] => some []
  | [(.keyword .derivingWord, classes)] => if readClasses classes then some [] else none
  | (.bar, [.word name]) :: parts =>
    if isAtomic name then (readConstructors parts).map (name :: ·) else none
  | _ => none

/-- `inductive PathwayState where`. -/
def readStates (body : List Token) : Option (List String) :=
  match segments startsConstructor body with
  | ([.word name, .keyword .whereWord], parts) => if name = "PathwayState" then readConstructors parts else none
  | _ => none

/-- The number of arguments of a type `PathwayState → ... → Bool`. -/
def readType : List Token → Option ℕ
  | [.word result] => if result = "Bool" then some 0 else none
  | .word argument :: .arrow :: rest =>
    if argument = "PathwayState" then (readType rest).map (· + 1) else none
  | _ => none

/-- A name for a parameter that hides no type. -/
def isParameter (name : String) : Bool := isAtomic name && name ∉ ["PathwayState", "Bool"]

/-- The parameters `(name ... : PathwayState) ...`, and what is behind them. -/
def readBinders : Bool → List Token → Option (List String × List Token)
  | false, .opening :: rest => readBinders true rest
  | false, rest => some ([], rest)
  | true, .word name :: rest =>
    if isParameter name then (readBinders true rest).map fun read => (name :: read.1, read.2) else none
  | true, .colon :: .word type :: .closing :: rest => if type = "PathwayState" then readBinders false rest else none
  | true, _ => none

/-- The names up to `=>`, and what is behind it. -/
def readNames : List Token → Option (List String × List Token)
  | .maps :: rest => some ([], rest)
  | .word name :: rest =>
    if isParameter name then (readNames rest).map fun read => (name :: read.1, read.2) else none
  | _ => none

/-- `fun name ... =>`, when a body starts so, and what is behind it. -/
def readLambda : List Token → Option (List String × List Token)
  | .keyword .funWord :: rest => readNames rest
  | rest => some ([], rest)

/-- What is matched on: `name, ... with`. -/
def readScrutinees : List Token → Option (List String)
  | [.word name, .keyword .withWord] => some [name]
  | .word name :: .comma :: rest => (readScrutinees rest).map (name :: ·)
  | _ => none

/-- The body `match name, ... with` of a function: it matches on all parameters, in their order. -/
def readMatch (binders : List String) (arity : ℕ) (body : List Token) : Option (List String) := do
  match ← readLambda body with
  | (names, .keyword .matchWord :: rest) =>
    let scrutinees ← readScrutinees rest
    if names.length = arity ∧ scrutinees = binders ++ names ∧ scrutinees.Nodup then some scrutinees else none
  | _ => none

/-- What is between the name of a function and its rows: its parameters, when it names them, and how many patterns its
rows have. -/
def readHead (head : List Token) : Option (List String × ℕ) := do
  match ← readBinders false head with
  | (binders, .colon :: rest) =>
    let arity ← readType (rest.takeWhile (· ≠ .assign))
    match rest.dropWhile (· ≠ .assign) with
    | [] | [.assign, .keyword .funWord] => if binders = [] then some ([], arity) else none
    | _ :: body => (readMatch binders arity body).map fun parameters => (parameters, parameters.length)
  | _ => none

/-- The patterns of a row, and its value when one is written. -/
def readRow : List Token → Option (List String × Option Bool)
  | [.word name] => some ([name], none)
  | [.word name, .maps, .keyword .trueWord] => some ([name], some true)
  | [.word name, .maps, .keyword .falseWord] => some ([name], some false)
  | .word name :: .comma :: rest => (readRow rest).map fun row => (name :: row.1, row.2)
  | _ => none

/-- The rows with their values: a row without one has that of the next. -/
def readRows : List (Token × List Token) → Option (List (List String × Bool))
  | [] => some []
  | part :: parts => do
    let row ← readRow part.2
    let rows ← readRows parts
    match row.2, rows with
    | some value, rows => some ((row.1, value) :: rows)
    | none, next :: rows => some ((row.1, next.2) :: next :: rows)
    | none, [] => none

/-- A function of states. -/
structure StateFunction where
  parameters : List String
  arity : ℕ
  rows : List (List String × Bool)

/-- `def name`, the head of the function, and its rows. -/
def readFunction : Token × List Token → Option StateFunction
  | (.keyword .defWord, body) =>
    match segments startsRow body with
    | (.word _ :: head, parts) => do
      let read ← readHead head
      let rows ← readRows parts
      if rows.all fun row => row.1.length = read.2 then some ⟨read.1, read.2, rows⟩ else none
    | _ => none
  | _ => none

/-! ## The file -/

/-- What a pattern covers. -/
inductive StatePattern : Type
  | state (name : String)
  | any
  deriving DecidableEq

def StatePattern.covers : StatePattern → String → Bool
  | .state name, given => name = given
  | .any, _ => true

/-- A clause `| source, target => value`. -/
structure Clause where
  source : StatePattern
  target : StatePattern
  value : Bool
  deriving DecidableEq

def Clause.covers (clause : Clause) (pair : String × String) : Bool :=
  clause.source.covers pair.1 && clause.target.covers pair.2

/-- The constructors of `PathwayState`, and the clauses of the transition function. -/
structure StateFile where
  constructors : List String
  clauses : List Clause
  nodup : constructors.Nodup

/-- A name of a constructor, in its namespace or with the namespace open, covers it; any other name is a variable. -/
def readPattern (constructors : List String) (isOpen : Bool) (name : String) : Option StatePattern :=
  if name = "_" then some .any
  else match constructors.find? fun c => name = "PathwayState." ++ c || name = "." ++ c || isOpen && name = c with
    | some c => some (.state c)
    | none => if isAtomic name then some .any else none

def readClause (constructors : List String) (isOpen : Bool) : List String × Bool → Option Clause
  | ([source, target], value) => do
    some ⟨← readPattern constructors isOpen source, ← readPattern constructors isOpen target, value⟩
  | _ => none

/-- The commands inside of a namespace around all of them. -/
def dropNamespace : List (Token × List Token) → List (Token × List Token)
  | (.keyword .namespaceWord, [.word name]) :: commands =>
    if commands.getLast? = some (.keyword .endWord, [.word name]) then commands.dropLast else commands
  | commands => commands

/-- Whether the namespace of the states is opened, and the commands behind. -/
def readOpen : List (Token × List Token) → Bool × List (Token × List Token)
  | (.keyword .openWord, [.word name]) :: commands =>
    if name = "PathwayState" then (true, commands) else (false, (.keyword .openWord, [.word name]) :: commands)
  | commands => (false, commands)

/-- The declaration of the states, then functions, one of them of two states; its parameters hide no state. -/
def StateFile.ofCommands : List (Token × List Token) → Option StateFile
  | (.keyword .inductiveWord, body) :: commands => do
    let constructors ← readStates body
    let functions ← (readOpen commands).2.mapM readFunction
    match functions.filter fun f => f.arity = 2 with
    | [f] => do
      let clauses ← f.rows.mapM (readClause constructors (readOpen commands).1)
      if h : constructors.Nodup then
        if f.parameters.all (· ∉ constructors) then some ⟨constructors, clauses, h⟩ else none
      else none
    | _ => none
  | _ => none

/-- The file a text reads as. -/
def StateFile.ofText (text : List Char) : Option StateFile := do
  match segments startsCommand (← tokens text) with
  | ([], commands) => StateFile.ofCommands (dropNamespace commands)
  | _ => none

/-- The file the bytes read as. -/
def StateFile.ofBytes (data : Bytes) : Option StateFile := (decodeUtf8 data).bind StateFile.ofText

/-- The function the clauses define. -/
def StateFile.eval (file : StateFile) (source target : String) : Option Bool :=
  firstMatch Clause.covers Clause.value file.clauses (source, target)

end Rpr
