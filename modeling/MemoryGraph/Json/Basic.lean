-- SUMMARY: JSON values with their field access and the helpers that read typed data out of them.
import MemoryGraph.Number.Decimal
import MemoryGraph.Number.Numeral

/-!
# JSON values

A JSON value keeps the fields of an object in the order of the text, repeated
keys included; of a repeated key the last field counts. A number is an integer
when it was written without a point and exponent and fits 64 bits, and a decimal
otherwise, so `3.0` is never an integer.
-/
namespace MemoryGraph

/-- A number of a JSON text. -/
inductive JsonNumber where
  | integer (n : Int)
  | decimal (d : Decimal)
  deriving DecidableEq, Repr

/-- A JSON value. -/
inductive Json where
  | null
  | bool (b : Bool)
  | number (n : JsonNumber)
  | string (s : String)
  | array (items : List Json)
  | object (fields : List (String × Json))
  deriving Repr, BEq, Inhabited

namespace Json

/-- The value of an integer. -/
def int (n : Int) : Json := .number (.integer n)

/-- The value of a natural number. -/
def nat (n : Nat) : Json := .int n

/-- The array of the values of a list. -/
def list (f : α → Json) (as : List α) : Json := .array (as.map f)

/-- The value of something that may be missing, with `null` for nothing. -/
def orNull (f : α → Json) : Option α → Json
  | some a => f a
  | none => .null

/-- A field that is left out when there is nothing to say. -/
def optionalField (key : String) (f : α → Json) : Option α → List (String × Json)
  | some a => [(key, f a)]
  | none => []

/-! ## Reading -/

/-- The last field of a key. -/
def lastField? (key : String) (fields : List (String × Json)) : Option Json :=
  fields.foldl (fun found field => if field.1 = key then some field.2 else found) none

/-- The value of a key of an object. -/
def get? (key : String) : Json → Option Json
  | .object fields => lastField? key fields
  | _ => none

/-- The fields of an object, of each key the last. -/
def lastFields : List (String × Json) → List (String × Json)
  | [] => []
  | field :: rest =>
    if rest.any (fun other => other.1 == field.1) then lastFields rest
    else field :: lastFields rest

def string? : Json → Option String
  | .string s => some s
  | _ => none

def array? : Json → Option (List Json)
  | .array items => some items
  | _ => none

def bool? : Json → Option Bool
  | .bool b => some b
  | _ => none

/-- An integer of a range; a number written with a point or an exponent is none. -/
def integer? (range : IntegerRange) : Json → Option Int
  | .number (.integer n) => if range.holds n then some n else none
  | _ => none

/-- The double of a number. -/
def double? : Json → Option Float
  | .number (.integer n) => Decimal.scaled? ⟨n < 0, n.natAbs, 0⟩
  | .number (.decimal d) => d.scaled?
  | _ => none

/-- A value that may be absent or `null`: what `read` makes of it, `some none` when there is none,
and `none` when it is malformed. -/
def optional? (read : Json → Option α) : Option Json → Option (Option α)
  | none => some none
  | some .null => some none
  | some j => (read j).map some

/-- A value that may be absent, but not `null`. -/
def defaulted? (default : α) (read : Json → Option α) : Option Json → Option α
  | none => some default
  | some j => read j

/-- All the texts of an array of texts. -/
def strings? (j : Json) : Option (List String) :=
  j.array?.bind fun items => items.mapM string?

end Json
end MemoryGraph
