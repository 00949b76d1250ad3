-- SUMMARY: Lenient reading of numbers and lists of ids in the arguments of a tool.
import MemoryGraph.Json.Basic
import MemoryGraph.Text.Pieces

/-!
# Lenient arguments

An integer may be given as a number or as the text of one, with blanks around
it. A list of ids may be one id, an array of ids, or a text of ids between
commas and blanks.
-/
namespace MemoryGraph

open Text

/-- The shapes that a value can have to stand for integers. -/
inductive ArgumentShape where
  | integer
  | integerList
  deriving DecidableEq, Repr

/-- Why an argument is refused. -/
inductive ArgumentError where
  | missing (name : String)
  | wrongShape (wanted : ArgumentShape)
  | invalidNumeral (fault : NumeralError)
  deriving DecidableEq, Repr

def ArgumentShape.label : ArgumentShape → String
  | .integer => "StringOrNum"
  | .integerList => "IdList"

def ArgumentError.message : ArgumentError → String
  | .missing name => "missing field \x60" ++ name ++ "\x60"
  | .wrongShape wanted =>
    s!"data did not match any variant of untagged enum {wanted.label}"
  | .invalidNumeral fault => fault.message

namespace Argument

/-- The integer of a text, blanks around it apart. -/
def integerOfText (range : IntegerRange) (text : String) : Except ArgumentError Int :=
  (readNumeral range (trim text)).mapError .invalidNumeral

/-- An integer, given as a number or as its text. -/
def integer (range : IntegerRange) : Json → Except ArgumentError Int
  | .string text => integerOfText range text
  | j =>
    match j.integer? range with
    | some n => .ok n
    | none => .error (.wrongShape .integer)

/-- An integer that may be left out; `null` and a blank text leave it out too. -/
def optionalInteger (range : IntegerRange) : Option Json → Except ArgumentError (Option Int)
  | none => .ok none
  | some .null => .ok none
  | some (.string text) =>
    if allBlank text then .ok none else (integerOfText range text).map some
  | some j => (integer range j).map some

/-- An id or its text; other values have the wrong shape. -/
inductive IdItem where
  | id (n : Int)
  | text (s : String)
  deriving DecidableEq, Repr

/-- An item of a list of ids, by its shape alone. -/
def idItem? : Json → Option IdItem
  | .string s => some (.text s)
  | j => (j.integer? .signed64).map .id

/-- The id of an item. -/
def IdItem.value : IdItem → Except ArgumentError Int
  | .id n => .ok n
  | .text s => integerOfText .signed64 s

/-- The characters between the ids of a text. -/
def isIdDelimiter (c : Char) : Bool := c = ',' || isBlank c

/-- The ids of a text. -/
def idsOfText (text : String) : Except ArgumentError (List Int) :=
  (fieldsAt isIdDelimiter text).mapM (integerOfText .signed64)

/-- A list of ids. The shapes of all items are looked at before any of their texts is read. -/
def ids : Json → Except ArgumentError (List Int)
  | .string text => idsOfText text
  | .array items =>
    match items.mapM idItem? with
    | some items => items.mapM IdItem.value
    | none => .error (.wrongShape .integerList)
  | j =>
    match j.integer? .signed64 with
    | some n => .ok [n]
    | none => .error (.wrongShape .integerList)

/-- An argument that must be given. -/
def required (name : String) (read : Json → Except ArgumentError α) :
    Option Json → Except ArgumentError α
  | some j => read j
  | none => .error (.missing name)

end Argument
end MemoryGraph
