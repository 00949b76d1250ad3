-- SUMMARY: Reading JSON values: a machine over tokens with a stack of the open arrays and objects.
import MemoryGraph.Json.Token

/-!
# Reading JSON

The reader takes one token after the other and keeps the arrays and objects that
are open on a stack, so that it recurses on the text alone. At most 127 of them
may be open at a time.
-/
namespace MemoryGraph.Json

/-- How many arrays and objects may be open at a time. -/
def nestingLimit : Nat := 127

/-- An open array or object with what it holds so far, the last first. -/
inductive Frame where
  | array (items : List Json)
  | object (fields : List (String × Json)) (key : String)
  deriving Repr

/-- What the reader waits for. -/
inductive Reading where
  /-- A value, or right behind an opening bracket also its end. -/
  | value (stack : List Frame) (first : Bool)
  /-- A key of the innermost object, or right behind its opening brace also its end. -/
  | key (fields : List (String × Json)) (stack : List Frame) (first : Bool)
  /-- The colon behind a key. -/
  | colon (fields : List (String × Json)) (key : String) (stack : List Frame)
  /-- A comma or the end of the innermost array or object. -/
  | next (frame : Frame) (stack : List Frame)
  /-- Nothing more. -/
  | done (value : Json)
  deriving Repr

/-- A complete value goes into the innermost open array or object. -/
def place (value : Json) : List Frame → Reading
  | [] => .done value
  | .array items :: stack => .next (.array (value :: items)) stack
  | .object fields key :: stack => .next (.object ((key, value) :: fields) key) stack

/-- One token. -/
def readToken (state : Reading) (token : Token) : Except ReadError Reading :=
  match state, token with
  | .value stack _, .scalar v => .ok (place v stack)
  | .value stack _, .string s => .ok (place (.string s) stack)
  | .value stack _, .openSquare =>
    if stack.length < nestingLimit then .ok (.value (.array [] :: stack) true)
    else .error .tooDeep
  | .value stack _, .openBrace =>
    if stack.length < nestingLimit then .ok (.key [] stack true) else .error .tooDeep
  | .value (.array [] :: stack) true, .closeSquare => .ok (place (.array []) stack)
  | .key fields stack _, .string s => .ok (.colon fields s stack)
  | .key [] stack true, .closeBrace => .ok (place (.object []) stack)
  | .colon fields key stack, .colon => .ok (.value (.object fields key :: stack) false)
  | .next (.array items) stack, .comma => .ok (.value (.array items :: stack) false)
  | .next (.array items) stack, .closeSquare => .ok (place (.array items.reverse) stack)
  | .next (.object fields _) stack, .comma => .ok (.key fields stack false)
  | .next (.object fields _) stack, .closeBrace => .ok (place (.object fields.reverse) stack)
  | _, _ => .error .misplacedToken

/-- The reader and the machine below it after a character. -/
def readChar (state : Lexing × Reading) (c : Char) : Except ReadError (Lexing × Reading) := do
  let (lexing, tokens) ← lexStep state.1 c
  let reading ← tokens.foldlM readToken state.2
  return (lexing, reading)

/-- The value of a text. -/
def readChars (cs : List Char) : Except ReadError Json := do
  let (lexing, reading) ← cs.foldlM readChar (.between, .value [] false)
  let tokens ← lexEnd lexing
  match ← tokens.foldlM readToken reading with
  | .done value => .ok value
  | _ => .error .unexpectedEnd

/-- The value of a text. -/
def read (s : String) : Except ReadError Json := readChars s.toList

end MemoryGraph.Json
