-- SUMMARY: The tokens of a JSON text and the machine that cuts a text into them, one character at a time.
import MemoryGraph.Json.Basic

/-!
# JSON tokens

A text is cut into tokens by a machine that reads one character at a time: it
stands between tokens, inside a string, or inside a run of the characters that
numbers and the three literal words are made of. A string holds no raw control
character and no half of a surrogate pair; a number has no leading zero, digits
on both sides of its point, and a magnitude within double precision.
-/
namespace MemoryGraph.Json

/-- Why a text is no JSON. -/
inductive ReadError where
  | unexpected (c : Char)
  | unexpectedEnd
  | controlCharacter
  | invalidEscape
  | loneSurrogate
  | invalidWord (word : String)
  | numberOutOfRange
  | misplacedToken
  | tooDeep
  deriving DecidableEq, Repr

def ReadError.message : ReadError → String
  | .unexpected c => s!"unexpected character {c}"
  | .unexpectedEnd => "unexpected end of the text"
  | .controlCharacter => "control character in a string"
  | .invalidEscape => "invalid escape"
  | .loneSurrogate => "lone surrogate in a string"
  | .invalidWord word => s!"invalid literal {word}"
  | .numberOutOfRange => "number out of range"
  | .misplacedToken => "misplaced token"
  | .tooDeep => "nested too deeply"

/-- A token of a JSON text. -/
inductive Token where
  | openSquare
  | closeSquare
  | openBrace
  | closeBrace
  | comma
  | colon
  | string (s : String)
  | scalar (value : Json)
  deriving Repr, BEq

/-! ## Numbers and literal words -/

/-- The characters that numbers and literal words are made of. -/
def isRunChar (c : Char) : Bool :=
  c.isAlphanum || c = '+' || c = '-' || c = '.'

/-- The leading ASCII digits of a text and what stands behind them. -/
def takeDigits (cs : List Char) : List Char × List Char :=
  (cs.takeWhile Char.isDigit, cs.dropWhile Char.isDigit)

/-- The number that digits spell. -/
def digitsValue (ds : List Char) : Nat :=
  ds.foldl (fun n c => n * 10 + (c.toNat - '0'.toNat)) 0

/-- An exponent: nothing, or a letter e, a sign or none, and digits. -/
def exponent? : List Char → Option Int
  | [] => some 0
  | e :: cs =>
    if e = 'e' ∨ e = 'E' then
      let (negative, ds) := match cs with
        | '+' :: ds => (false, ds)
        | '-' :: ds => (true, ds)
        | ds => (false, ds)
      if ds ≠ [] ∧ ds.all Char.isDigit then
        some (if negative then -(digitsValue ds : Int) else digitsValue ds)
      else none
    else none

/-- The number that digits spell behind those of `n`, as long as it fits 64 bits, and the digits
that are left. -/
def significand (n : Nat) : List Char → Nat × List Char
  | [] => (n, [])
  | c :: cs =>
    let longer := n * 10 + digitsValue [c]
    if IntegerRange.unsigned64.holds longer then significand longer cs else (n, c :: cs)

/-- The number of an unsigned literal: whole digits without a leading zero, then a fraction or
none, then an exponent or none. Only digits that fit 64 bits count; a whole digit that is left out
still takes its place. The flag says whether the literal is an integer of 64 bits. -/
def magnitude? (cs : List Char) : Option (Bool × Nat × Int) :=
  let (whole, rest) := takeDigits cs
  let (n, leftOut) := significand 0 whole
  if whole = [] ∨ (whole.head? = some '0' ∧ whole.length ≠ 1) then none
  else match rest with
    | [] => some (leftOut.isEmpty, n, leftOut.length)
    | '.' :: more =>
      let (fraction, rest) := takeDigits more
      let (n, unread) := significand n fraction
      let places : Int := fraction.length - unread.length
      if fraction = [] then none
      else (exponent? rest).map fun e => (false, n, leftOut.length - places + e)
    | rest => (exponent? rest).map fun e => (false, n, leftOut.length + e)

/-- The number of a literal. A negative integer below 64 bits and a negative zero are decimals. -/
def numberOf (negative : Bool) (isInteger : Bool) (digits : Nat) (exponent : Int) : JsonNumber :=
  if isInteger ∧ ¬negative then .integer digits
  else if isInteger ∧ 0 < digits ∧ IntegerRange.signed64.holds (-digits) then .integer (-digits)
  else .decimal ⟨negative, digits, exponent⟩

/-- The value of a run of word characters. -/
def runValue (run : List Char) : Except ReadError Json :=
  let number (negative : Bool) (cs : List Char) : Except ReadError Json :=
    match magnitude? cs with
    | none => .error (.invalidWord (String.ofList run))
    | some (isInteger, digits, exponent) =>
      if (Decimal.scaled? ⟨negative, digits, exponent⟩).isNone then .error .numberOutOfRange
      else .ok (.number (numberOf negative isInteger digits exponent))
  match run with
  | ['n', 'u', 'l', 'l'] => .ok .null
  | ['t', 'r', 'u', 'e'] => .ok (.bool true)
  | ['f', 'a', 'l', 's', 'e'] => .ok (.bool false)
  | '-' :: cs => number true cs
  | cs => number false cs

/-! ## The machine -/

/-- Where the machine stands. What was read of a string or run is kept in reverse. -/
inductive Lexing where
  /-- Between tokens. -/
  | between
  /-- Inside a string. -/
  | text (done : List Char)
  /-- Behind a backslash. -/
  | escape (done : List Char)
  /-- Inside a code of four hexadecimal digits, of which `left` are still due; `high` is the first
  half of a surrogate pair. -/
  | code (done : List Char) (high : Option Nat) (left value : Nat)
  /-- Behind the first half of a surrogate pair: a backslash is due. -/
  | half (done : List Char) (high : Nat)
  /-- And behind its backslash: the letter u is due. -/
  | halfEscape (done : List Char) (high : Nat)
  /-- Inside a number or a literal word. -/
  | run (done : List Char)
  deriving DecidableEq, Repr

def hexValue? (c : Char) : Option Nat :=
  if '0' ≤ c ∧ c ≤ '9' then some (c.toNat - '0'.toNat)
  else if 'a' ≤ c ∧ c ≤ 'f' then some (c.toNat - 'a'.toNat + 10)
  else if 'A' ≤ c ∧ c ≤ 'F' then some (c.toNat - 'A'.toNat + 10)
  else none

/-- The character of an escape of one letter. -/
def simpleEscape? : Char → Option Char
  | '"' => some '"'
  | '\\' => some '\\'
  | '/' => some '/'
  | 'b' => some '\u0008'
  | 'f' => some '\u000c'
  | 'n' => some '\n'
  | 'r' => some '\r'
  | 't' => some '\t'
  | _ => none

/-- The place behind a complete code. -/
def afterCode (done : List Char) (high : Option Nat) (value : Nat) : Except ReadError Lexing :=
  match high with
  | some h =>
    if 0xdc00 ≤ value ∧ value ≤ 0xdfff then
      .ok (.text (Char.ofNat (0x10000 + (h - 0xd800) * 0x400 + (value - 0xdc00)) :: done))
    else .error .loneSurrogate
  | none =>
    if 0xd800 ≤ value ∧ value ≤ 0xdbff then .ok (.half done value)
    else if 0xdc00 ≤ value ∧ value ≤ 0xdfff then .error .loneSurrogate
    else .ok (.text (Char.ofNat value :: done))

/-- A character between tokens. -/
def lexBetween (c : Char) : Except ReadError (Lexing × List Token) :=
  match c with
  | ' ' | '\t' | '\n' | '\r' => .ok (.between, [])
  | '[' => .ok (.between, [.openSquare])
  | ']' => .ok (.between, [.closeSquare])
  | '{' => .ok (.between, [.openBrace])
  | '}' => .ok (.between, [.closeBrace])
  | ',' => .ok (.between, [.comma])
  | ':' => .ok (.between, [.colon])
  | '"' => .ok (.text [], [])
  | c => if isRunChar c then .ok (.run [c], []) else .error (.unexpected c)

/-- One step of the machine: where it stands next, and the tokens that are complete. -/
def lexStep (state : Lexing) (c : Char) : Except ReadError (Lexing × List Token) :=
  match state with
  | .between => lexBetween c
  | .text done =>
    if c = '"' then .ok (.between, [.string (String.ofList done.reverse)])
    else if c = '\\' then .ok (.escape done, [])
    else if c.toNat < 0x20 then .error .controlCharacter
    else .ok (.text (c :: done), [])
  | .escape done =>
    if c = 'u' then .ok (.code done none 4 0, [])
    else match simpleEscape? c with
      | some e => .ok (.text (e :: done), [])
      | none => .error .invalidEscape
  | .code done high left value =>
    match hexValue? c with
    | none => .error .invalidEscape
    | some d =>
      if left ≤ 1 then (afterCode done high (value * 16 + d)).map (·, [])
      else .ok (.code done high (left - 1) (value * 16 + d), [])
  | .half done high => if c = '\\' then .ok (.halfEscape done high, []) else .error .loneSurrogate
  | .halfEscape done high =>
    if c = 'u' then .ok (.code done (some high) 4 0, []) else .error .loneSurrogate
  | .run done =>
    if isRunChar c then .ok (.run (c :: done), [])
    else do
      let value ← runValue done.reverse
      let (next, tokens) ← lexBetween c
      return (next, .scalar value :: tokens)

/-- The tokens that the end of the text completes. -/
def lexEnd : Lexing → Except ReadError (List Token)
  | .between => .ok []
  | .run done => (runValue done.reverse).map fun value => [.scalar value]
  | _ => .error .unexpectedEnd

end MemoryGraph.Json
