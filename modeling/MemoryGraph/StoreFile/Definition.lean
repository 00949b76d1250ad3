-- SUMMARY: The texts that define the tables and indexes of a store file.
import MemoryGraph.Text.Case

/-!
# Definitions

A definition is a text that begins with the word `CREATE`. It is cut into words,
of which only as much is understood as tells what is defined, under which name,
and which columns a table has. Small and capital letters do not differ.
-/
namespace MemoryGraph.Definition

open Text

/-- A word of a definition. -/
inductive Word where
  /-- A name or a word of the language. -/
  | bare (s : String)
  | quoted (s : String)
  | mark (c : Char)
  deriving DecidableEq, Repr

/-! ## Words -/

/-- Where the reading of words stands. What was read of a word is kept in reverse. -/
inductive Scan where
  | between
  | bare (done : List Char)
  | quoted (close : Char) (done : List Char)
  /-- Behind a closing quote, which another one takes back. -/
  | closing (close : Char) (done : List Char)
  /-- Behind the first of the two marks that a comment may begin with. -/
  | opening (mark : Char)
  | lineComment
  | blockComment (afterStar : Bool)
  deriving DecidableEq, Repr

/-- The characters of names. -/
def isNameChar (c : Char) : Bool := c.isAlphanum || c = '_' || c = '$' || 0x80 ≤ c.toNat

/-- The quote that closes what a quote opens. -/
def closeOf? (c : Char) : Option Char :=
  if c = '\'' ∨ c = '"' ∨ c.toNat = 0x60 then some c else if c = '[' then some ']' else none

/-- A word from its characters in reverse. -/
def wordOf (make : String → Word) (done : List Char) : Word := make (String.ofList done.reverse)

/-- What a character between two words does. -/
def scanBetween (c : Char) : Scan × List Word :=
  if c = ' ' ∨ c = '\t' ∨ c = '\n' ∨ c = '\r' ∨ c = '\x0c' then (.between, [])
  else if isNameChar c then (.bare [c], [])
  else match closeOf? c with
    | some close => (.quoted close [], [])
    | none => if c = '-' ∨ c = '/' then (.opening c, []) else (.between, [.mark c])

/-- What a character does, and the words that end before it. -/
def scanStep (scan : Scan) (c : Char) : Scan × List Word :=
  let behind (word : Word) : Scan × List Word :=
    let (scan, words) := scanBetween c
    (scan, word :: words)
  match scan with
  | .between => scanBetween c
  | .bare done => if isNameChar c then (.bare (c :: done), []) else behind (wordOf .bare done)
  | .quoted close done =>
    if c ≠ close then (.quoted close (c :: done), [])
    else if close = ']' then (.between, [wordOf .quoted done])
    else (.closing close done, [])
  | .closing close done =>
    if c = close then (.quoted close (c :: done), []) else behind (wordOf .quoted done)
  | .opening mark =>
    if mark = '-' ∧ c = '-' then (.lineComment, [])
    else if mark = '/' ∧ c = '*' then (.blockComment false, [])
    else behind (.mark mark)
  | .lineComment => (if c = '\n' then .between else .lineComment, [])
  | .blockComment afterStar =>
    (if afterStar && c = '/' then .between else .blockComment (c = '*'), [])

/-- The words of a text behind a state; a quote must be closed. -/
def scanAll? (scan : Scan) : List Char → Option (List Word)
  | [] => match scan with
    | .bare done => some [wordOf .bare done]
    | .closing _ done => some [wordOf .quoted done]
    | .opening mark => some [.mark mark]
    | .quoted _ _ => none
    | _ => some []
  | c :: rest =>
    let (scan, found) := scanStep scan c
    (scanAll? scan rest).map (found ++ ·)

/-- The words of a text. -/
def words? (text : String) : Option (List Word) := scanAll? .between text.toList

/-! ## What is defined -/

/-- What a definition defines. -/
inductive Defined where
  /-- A table with its columns, and the number of indexes that it brings along. -/
  | table (name : String) (columns : List String) (indexes : Nat)
  /-- An index with its table and the columns that it names. -/
  | index (name table : String) (columns : List String)
  | view (name : String)
  /-- A table that keeps its rows elsewhere. -/
  | foreignTable (name : String)
  | trigger (name : String)
  deriving DecidableEq, Repr

/-- Whether a word is a given word of the language. -/
def Word.isKeyword (keyword : String) : Word → Bool
  | .bare s => foldAscii s = keyword
  | _ => false

/-- The name that a word is. A number is none, unless it is quoted. -/
def Word.name? : Word → Option String
  | .bare s => if s.toList.head?.any Char.isDigit then none else some s
  | .quoted s => some s
  | .mark _ => none

/-- The words behind given words of the language, if these are in front. -/
def behind? : List String → List Word → Option (List Word)
  | [], words => some words
  | keyword :: keywords, word :: words =>
    if word.isKeyword keyword then behind? keywords words else none
  | _, [] => none

/-- A name and the words behind it. The name of a file must not stand before it. -/
def nameOf? (words : List Word) : Option (String × List Word) :=
  match (behind? ["if", "not", "exists"] words).getD words with
  | _ :: .mark '.' :: _ => none
  | word :: rest => word.name?.map (·, rest)
  | [] => none

/-- The parts of a list in brackets, of which the opening one was read, and the words behind it.
Commas part them, `depth` further brackets are open, and no part is empty; what was read of a part
is kept in reverse. -/
def parts? (depth : Nat) (part : List Word) : List Word → Option (List (List Word) × List Word)
  | [] => none
  | .mark '(' :: rest => parts? (depth + 1) (.mark '(' :: part) rest
  | .mark ')' :: rest =>
    match depth with
    | 0 => if part.isEmpty then none else some ([part.reverse], rest)
    | depth + 1 => parts? depth (.mark ')' :: part) rest
  | .mark ',' :: rest =>
    if depth ≠ 0 then parts? depth (.mark ',' :: part) rest
    else if part.isEmpty then none
    else (parts? 0 [] rest).map fun (parts, behind) => (part.reverse :: parts, behind)
  | word :: rest => parts? depth (word :: part) rest

/-- The words that begin a part of a table which is no column. -/
def partKeywords : List String := ["constraint", "primary", "unique", "check", "foreign"]

/-- The columns that the parts of a table define. No bracket stands right behind the name of a
column. -/
def columnsOfParts? : List (List Word) → Option (List String)
  | [] => some []
  | part :: parts => do
    let first ← part.head?
    if partKeywords.any first.isKeyword then columnsOfParts? parts
    else if part[1]? = some (.mark '(') then none
    else return (← first.name?) :: (← columnsOfParts? parts)

/-- The columns that the parts of an index name; a part may be a formula instead. -/
def columnsNamed (parts : List (List Word)) : List String :=
  parts.filterMap fun
    | word :: rest => if rest.all (fun other => other.name?.isSome) then word.name? else none
    | [] => none

/-- How many indexes a table brings along by the words of its parts: one for each set of columns
that is unique. Integers that are a primary key are the numbers of the rows and need none. -/
def inherentIndexes (afterInteger : Bool) : List Word → Nat
  | [] => 0
  | word :: rest =>
    let brings := word.isKeyword "unique" || (word.isKeyword "primary" && !afterInteger)
    inherentIndexes (word.isKeyword "integer") rest + (if brings then 1 else 0)

/-- Whether a word may stand behind the columns of a table. -/
def isTableOption (word : Word) : Bool :=
  ["without", "rowid", "strict"].any word.isKeyword || word = .mark ','

/-- What the words of a definition define. -/
def ofWords? (words : List Word) : Option Defined := do
  let words ← behind? ["create"] words
  let words := (behind? ["temp"] words).getD words
  if let some words := behind? ["table"] words then
    match ← nameOf? words with
    | (name, .mark '(' :: rest) =>
      let (parts, rest) ← parts? 0 [] rest
      let columns ← columnsOfParts? parts
      if columns.isEmpty || !rest.all isTableOption then none
      else return .table name columns (inherentIndexes false words)
    | _ => none
  else if let some words := behind? ["index"] words <|> behind? ["unique", "index"] words then
    let (name, rest) ← nameOf? words
    match ← behind? ["on"] rest with
    | word :: .mark '(' :: rest =>
      return .index name (← word.name?) (columnsNamed (← parts? 0 [] rest).1)
    | _ => none
  else if let some words := behind? ["view"] words then return .view (← nameOf? words).1
  else if let some words := behind? ["virtual", "table"] words then
    return .foreignTable (← nameOf? words).1
  else return .trigger (← nameOf? (← behind? ["trigger"] words)).1

/-- What a text defines. A semicolon ends the definition. -/
def ofText? (text : String) : Option Defined :=
  (words? text).bind fun words => ofWords? (words.takeWhile (· ≠ .mark ';'))

/-- The word for what is defined, its name, and the name of the table that it belongs to. -/
def Defined.heading : Defined → String × String × Option String
  | .table name _ _ => ("table", name, some name)
  | .index name owner _ => ("index", name, some owner)
  | .view name => ("view", name, some name)
  | .foreignTable name => ("table", name, some name)
  | .trigger name => ("trigger", name, none)

end MemoryGraph.Definition
