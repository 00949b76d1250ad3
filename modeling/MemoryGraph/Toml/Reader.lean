-- SUMMARY: Reading TOML documents of version 1.0.
import MemoryGraph.Json.Token
import MemoryGraph.Text.Blank
import MemoryGraph.Toml.Table

/-!
# Reading TOML

A reader takes what it can from the front of a text, or fails and takes nothing.
Readers are put together from smaller ones; repetition ends when nothing more is
taken, and values nest less than 80 deep, so every reader ends.
-/
namespace MemoryGraph.Toml

/-- What takes a value from the front of a text. -/
abbrev Reader := StateT (List Char) Option

namespace Reader

/-! ## Building blocks -/

/-- One character of a class. -/
def charIf (p : Char → Bool) : Reader Char := fun cs =>
  match cs with
  | c :: rest => if p c then some (c, rest) else none
  | [] => none

/-- One given character. -/
def char (c : Char) : Reader Unit := do let _ ← charIf (· = c)

/-- The given characters. -/
def chars (wanted : List Char) : Reader Unit := fun cs =>
  if wanted.isPrefixOf cs then some ((), cs.drop wanted.length) else none

/-- The end of the text. -/
def atEnd : Reader Unit := fun cs => if cs.isEmpty then some ((), []) else none

/-- The characters of a class at the front, possibly none. -/
def takeWhile (p : Char → Bool) : Reader (List Char) := fun cs =>
  some (cs.takeWhile p, cs.dropWhile p)

/-- The characters of a class at the front, one at least. -/
def takeWhile1 (p : Char → Bool) : Reader (List Char) := do
  let taken ← takeWhile p
  if taken.isEmpty then failure else return taken

/-- What `p` reads as often as it takes something. -/
def repeatFrom (p : Reader α) (cs : List Char) : List α × List Char :=
  match p cs with
  | none => ([], cs)
  | some (a, rest) =>
    if rest.length < cs.length then
      let (more, rest) := repeatFrom p rest
      (a :: more, rest)
    else ([], cs)
termination_by cs.length

/-- What `p` reads as often as it takes something. -/
def many (p : Reader α) : Reader (List α) := fun cs => some (repeatFrom p cs)

/-- Items with separators between them, one at least. -/
def separated (separator : Reader Unit) (item : Reader α) : Reader (List α) := do
  let first ← item
  let rest ← many (do separator; item)
  return first :: rest

/-- A given number of characters of a class. -/
def exactly (n : Nat) (p : Char → Bool) : Reader (List Char) := fun cs =>
  let taken := cs.take n
  if taken.length = n ∧ taken.all p then some (taken, cs.drop n) else none

/-! ## Blanks and comments -/

def isSpace (c : Char) : Bool := c = ' ' || c = '\t'

/-- The characters of a comment and between the quotes of a literal string. -/
def isPlain (c : Char) : Bool := c = '\t' || (0x20 ≤ c.toNat && c.toNat ≠ 0x7f)

def spaces : Reader Unit := do let _ ← takeWhile isSpace

def newline : Reader Unit := char '\n' <|> chars ['\r', '\n']

def comment : Reader Unit := do
  char '#'
  let _ ← takeWhile isPlain

/-- Blanks, line ends and comments between the items of an array. -/
def gap : Reader Unit := do
  let _ ← many (spaces *> (comment <|> pure ()) *> newline)
  spaces

/-! ## Strings -/

/-- The character of a code, if it is one. -/
def scalarOfCode? (n : Nat) : Option Char :=
  if n < 0xd800 ∨ (0xdfff < n ∧ n < 0x110000) then some (Char.ofNat n) else none

def codeOf (digits : List Char) : Nat :=
  digits.foldl (fun n c => n * 16 + (Json.hexValue? c).getD 0) 0

def isHexDigit (c : Char) : Bool := (Json.hexValue? c).isSome

def escape : Reader Char := do
  char '\\'
  let c ← charIf (fun _ => true)
  match c with
  | 'b' => return '\u0008'
  | 't' => return '\t'
  | 'n' => return '\n'
  | 'f' => return '\u000c'
  | 'r' => return '\r'
  | '"' => return '"'
  | '\\' => return '\\'
  | 'u' => do
    let digits ← exactly 4 isHexDigit
    StateT.lift (scalarOfCode? (codeOf digits))
  | 'U' => do
    let digits ← exactly 8 isHexDigit
    StateT.lift (scalarOfCode? (codeOf digits))
  | _ => failure

def basicChar : Reader Char :=
  charIf (fun c => isPlain c && c ≠ '"' && c ≠ '\\') <|> escape

def basicString : Reader String := do
  char '"'
  let body ← many basicChar
  char '"'
  return String.ofList body

def literalString : Reader String := do
  char '\''
  let body ← takeWhile (fun c => isPlain c && c ≠ '\'')
  char '\''
  return String.ofList body

/-- A backslash at the end of a line, with the blanks and line ends behind it. -/
def lineJoin : Reader Unit := do
  char '\\'
  spaces
  newline
  let _ ← many (charIf isSpace *> pure () <|> newline)

/-- A part of a string of several lines: a character, a line end, a joined line, or quotes that do
not end it. -/
def multilinePart (quote : Char) (plainPart : Reader (List Char)) : Reader (List Char) :=
  plainPart
    <|> (newline *> pure ['\n'])
    <|> (do
      let quotes ← takeWhile1 (· = quote)
      if quotes.length ≤ 2 then return quotes else failure)

/-- The quotes at the end of a string of several lines; one or two of them may belong to it. -/
def multilineEnd (quote : Char) : Reader (List Char) := do
  let quotes ← takeWhile1 (· = quote)
  if 3 ≤ quotes.length ∧ quotes.length ≤ 5 then return quotes.drop 3 else failure

def multiline (quote : Char) (plainPart : Reader (List Char)) : Reader String := do
  chars [quote, quote, quote]
  let _ ← optional newline
  let body ← many (multilinePart quote plainPart)
  let last ← multilineEnd quote
  return String.ofList (body.flatten ++ last)

def multilineBasic : Reader String :=
  multiline '"' ((lineJoin *> pure []) <|> (basicChar >>= fun c => pure [c]))

def multilineLiteral : Reader String :=
  multiline '\'' (charIf (fun c => isPlain c && c ≠ '\'') >>= fun c => pure [c])

def string : Reader String := multilineBasic <|> basicString <|> multilineLiteral <|> literalString

/-! ## Keys -/

def isBareChar (c : Char) : Bool := c.isAlphanum || c = '_' || c = '-'

def simpleKey : Reader String :=
  (String.ofList <$> takeWhile1 isBareChar) <|> basicString <|> literalString

/-- How many parts a dotted key has at most, and how deep values nest at most. -/
def depthLimit : Nat := 79

/-- A key: the parts before the last one, and the last one. -/
def key : Reader (List String × String) := do
  let parts ← separated (spaces *> char '.' *> spaces) simpleKey
  match parts.getLast? with
  | some last => if parts.length ≤ depthLimit then return (parts.dropLast, last) else failure
  | none => failure

/-! ## Numbers and moments -/

/-- Digits with single underscores between them. -/
def digitGroups (isDigit : Char → Bool) : Reader (List Char) := do
  let groups ← separated (char '_') (takeWhile1 isDigit)
  return groups.flatten

def signed : Reader (List Char) :=
  (char '-' *> pure ['-']) <|> (char '+' *> pure ['+']) <|> pure []

/-- The digits of a decimal integer: a zero alone, or no zero in front. -/
def decimalDigits : Reader (List Char) := do
  let digits ← digitGroups Char.isDigit
  if digits.head? = some '0' ∧ digits.length ≠ 1 then failure else return digits

def integerInRange (n : Int) : Reader Int :=
  if IntegerRange.signed64.holds n then return n else failure

def decimalInteger : Reader Int := do
  let sign ← signed
  let n : Int := Json.digitsValue (← decimalDigits)
  integerInRange (if sign = ['-'] then -n else n)

/-- The value of a digit in a base up to sixteen, letters included. -/
def radixValue (base : Nat) (digits : List Char) : Nat :=
  digits.foldl (fun n c => n * base + (Json.hexValue? c).getD 0) 0

def radixInteger (mark : Char) (base : Nat) : Reader Int := do
  chars ['0', mark]
  let digits ← digitGroups (fun c => (Json.hexValue? c).any (fun d => d < base))
  integerInRange (radixValue base digits)

def integer : Reader Int :=
  radixInteger 'x' 16 <|> radixInteger 'o' 8 <|> radixInteger 'b' 2 <|> decimalInteger

/-- An exponent with its digits. -/
def exponentPart : Reader (List Char) := do
  let _ ← charIf (fun c => c = 'e' || c = 'E')
  let sign ← signed
  let digits ← digitGroups Char.isDigit
  return sign ++ digits

/-- A float: a decimal integer with a fraction, an exponent or both, or one of the names of values
that are no numbers. A positive one that is too large is refused. -/
def float : Reader String := do
  let sign ← signed
  let special := (chars ['i', 'n', 'f'] *> pure "inf") <|> (chars ['n', 'a', 'n'] *> pure "nan")
  (do return String.ofList sign ++ (← special)) <|> (do
    let whole ← decimalDigits
    let fraction ← optional (char '.' *> digitGroups Char.isDigit)
    let exponent ← optional exponentPart
    if fraction.isNone ∧ exponent.isNone then failure
    let behind := fraction.getD []
    let power : Int := match exponent with
      | some ('-' :: digits) => -(Json.digitsValue digits : Int)
      | some ('+' :: digits) => Json.digitsValue digits
      | some digits => Json.digitsValue digits
      | none => 0
    let negative := sign = ['-']
    let d : Decimal := ⟨negative, Json.digitsValue (whole ++ behind), power - behind.length⟩
    if !negative && d.exceedsDouble then failure
    return d.text)

/-- A number of exactly `count` digits from `least` to `greatest`, as its digits. -/
def fixedDigits (count least greatest : Nat) : Reader (List Char) := do
  let digits ← exactly count Char.isDigit
  let n := Json.digitsValue digits
  if least ≤ n ∧ n ≤ greatest then return digits else failure

def daysInMonth (year month : Nat) : Nat :=
  if month = 2 then
    if year % 4 = 0 ∧ (year % 100 ≠ 0 ∨ year % 400 = 0) then 29 else 28
  else if month = 4 ∨ month = 6 ∨ month = 9 ∨ month = 11 then 30
  else 31

def date : Reader (List Char) := do
  let year ← fixedDigits 4 0 9999
  char '-'
  let month ← fixedDigits 2 1 12
  char '-'
  let day ← fixedDigits 2 1 (daysInMonth (Json.digitsValue year) (Json.digitsValue month))
  return year ++ ['-'] ++ month ++ ['-'] ++ day

/-- The places behind a second: nine of them at most, without zeros at their end. -/
def placesText (digits : List Char) : List Char :=
  match (digits.take 9).reverse.dropWhile (· = '0') with
  | [] => []
  | backwards => '.' :: backwards.reverse

/-- How lenient a moment is read: the last hour of a day, and the hours and minutes of an offset. -/
structure MomentStyle where
  lastHour : Nat
  allowsOffset : Nat → Nat → Bool

/-- A moment that stands in a document by itself. -/
def MomentStyle.bare : MomentStyle := ⟨23, fun hours minutes => hours ≤ 23 && minutes ≤ 59⟩

/-- A moment in a text. -/
def MomentStyle.quoted : MomentStyle := ⟨24, fun hours minutes => hours * 60 + minutes ≤ 24 * 60⟩

def timeOfDay (style : MomentStyle) : Reader (List Char) := do
  let hour ← fixedDigits 2 0 style.lastHour
  char ':'
  let minute ← fixedDigits 2 0 59
  char ':'
  let second ← fixedDigits 2 0 60
  let places ← optional (char '.' *> takeWhile1 Char.isDigit)
  return hour ++ [':'] ++ minute ++ [':'] ++ second ++ placesText (places.getD [])

/-- A number below a hundred with two digits. -/
def twoDigits (n : Nat) : List Char := [Nat.digitChar (n / 10), Nat.digitChar (n % 10)]

/-- An offset with at most 59 minutes; no offset at all counts as positive. -/
def timeOffset (style : MomentStyle) : Reader (List Char) :=
  (do
    let _ ← charIf (fun c => c = 'Z' || c = 'z')
    return ['Z'])
    <|> (do
      let sign ← charIf (fun c => c = '+' || c = '-')
      let hours := Json.digitsValue (← exactly 2 Char.isDigit)
      char ':'
      let minutes := Json.digitsValue (← exactly 2 Char.isDigit)
      if !style.allowsOffset hours minutes then failure
      let total := hours * 60 + minutes
      return (if sign = '-' ∧ total ≠ 0 then '-' else '+') :: twoDigits (total / 60)
        ++ [':'] ++ twoDigits (total % 60))

/-- A date, a time of day, or both with or without an offset, in its usual form: a T between the
two, a Z for no offset, and no more places than it needs. -/
def moment (style : MomentStyle) : Reader String := do
  let day ← optional date
  match day with
  | none => return String.ofList (← timeOfDay style)
  | some day =>
    let time ← optional (do
      let _ ← charIf (fun c => c = 'T' || c = 't' || c = ' ')
      let time ← timeOfDay style
      let offset ← optional (timeOffset style)
      return 'T' :: time ++ offset.getD [])
    return String.ofList (day ++ time.getD [])

/-! ## Values -/

def boolean : Reader Bool :=
  (chars ['t', 'r', 'u', 'e'] *> pure true) <|> (chars ['f', 'a', 'l', 's', 'e'] *> pure false)

/-- A value without parts. -/
def scalar : Reader Toml :=
  (.string <$> string) <|> (.boolean <$> boolean) <|> (.moment <$> moment .bare)
    <|> (.float <$> float) <|> (.integer <$> integer)

/-- An array of values. -/
def arrayOf (value : Reader Toml) : Reader Toml := do
  char '['
  let items ← optional (separated (gap *> char ',') (gap *> value))
  if items.isSome then let _ ← optional (gap *> char ',')
  gap
  char ']'
  return .array (items.getD [])

/-- A pair of a key and a value. -/
def pairOf (value : Reader Toml) : Reader (List String × String × Toml) := do
  let (path, last) ← key
  spaces
  char '='
  spaces
  return (path, last, ← value)

/-- A table on one line. -/
def inlineTableOf (value : Reader Toml) : Reader Toml := do
  char '\x7b'
  let pairs ← optional (separated (spaces *> char ',') (spaces *> pairOf value))
  spaces
  char '\x7d'
  StateT.lift (tableOfPairs? (pairs.getD []))

/-- A value that nests at most a given number deep. -/
def value : Nat → Reader Toml
  | 0 => scalar
  | depth + 1 => scalar <|> arrayOf (value depth) <|> inlineTableOf (value depth)

/-! ## Documents -/

def headerStatement : Reader Statement := do
  char '['
  spaces
  let (path, last) ← key
  spaces
  char ']'
  return .header path last

def arrayHeaderStatement : Reader Statement := do
  chars ['[', '[']
  spaces
  let (path, last) ← key
  spaces
  chars [']', ']']
  return .arrayHeader path last

def pairStatement : Reader Statement := do
  let (path, last, v) ← pairOf (value depthLimit)
  return .pair path last v

/-- A line: a statement or none, and a comment or none. -/
def line : Reader (Option Statement) := do
  spaces
  let statement ← optional (arrayHeaderStatement <|> headerStatement <|> pairStatement)
  spaces
  let _ ← optional comment
  return statement

def document : Reader (List Statement) := do
  let _ ← optional (char '\ufeff')
  let lines ← many (do let statement ← line; newline; return statement)
  let last ← line
  atEnd
  return (lines ++ [last]).filterMap id

end Reader

/-- The moment that a whole text stands for, in its usual form. -/
def momentOfText? (text : String) : Option String :=
  match (Reader.moment .quoted <* Reader.atEnd) text.toList with
  | some (usual, _) => some usual
  | none => none

/-- The key that makes a table stand for a moment, when it is the first one. -/
def momentKey : String := "$__toml_private_datetime"

/-- What a table stands for when its first entry has the key of a moment. -/
def momentOfEntry? : Toml → Option Toml
  | .string text => (momentOfText? text).map .moment
  | _ => none

mutual
/-- A value with the tables in it that stand for moments replaced by these. -/
def settle? : Toml → Option Toml
  | .array items => (settleItems? items).map .array
  | .table entries =>
    match entries with
    | (key, v) :: rest =>
      if key = momentKey then momentOfEntry? v
      else do return .table ((key, ← settle? v) :: (← settleEntries? rest))
    | [] => some (.table [])
  | v => some v

/-- The items of an array with their moments. -/
def settleItems? : List Toml → Option (List Toml)
  | [] => some []
  | v :: rest => do return (← settle? v) :: (← settleItems? rest)

/-- The entries of a table with their moments. -/
def settleEntries? : List (String × Toml) → Option (List (String × Toml))
  | [] => some []
  | (key, v) :: rest => do return (key, ← settle? v) :: (← settleEntries? rest)
end

/-- The entries of a document, or nothing when the text is no TOML. A document that stands for a
moment has no entries. -/
def read? (text : String) : Option (List (String × Toml)) := do
  let (statements, _) ← Reader.document text.toList
  match ← settle? (.table (← tableOfStatements? statements)) with
  | .table entries => return entries
  | _ => return []

end MemoryGraph.Toml
