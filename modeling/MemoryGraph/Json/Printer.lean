-- SUMMARY: Writing JSON values, on one line or indented, and putting the keys of objects in order.
import MemoryGraph.Json.Basic

/-!
# Writing JSON

A value is written on one line, or with one item or field a line, indented by
two blanks for each open array and object. Only quotes, backslashes and control
characters below the blank are escaped.
-/
namespace MemoryGraph.Json

/-- The hexadecimal digit of a number below sixteen. -/
def hexDigit (n : Nat) : Char := Nat.digitChar n

/-- A character as it stands in a string. -/
def escapeChar (c : Char) : List Char :=
  if c = '"' then ['\\', '"']
  else if c = '\\' then ['\\', '\\']
  else if c = '\n' then ['\\', 'n']
  else if c = '\r' then ['\\', 'r']
  else if c = '\t' then ['\\', 't']
  else if c = '\u0008' then ['\\', 'b']
  else if c = '\u000c' then ['\\', 'f']
  else if c.toNat < 0x20 then
    ['\\', 'u', '0', '0', hexDigit (c.toNat / 16), hexDigit (c.toNat % 16)]
  else [c]

/-- A text as a string between quotes. -/
def quoted (s : String) : List Char := '"' :: s.toList.flatMap escapeChar ++ ['"']

def numberChars : JsonNumber → List Char
  | .integer n => (toString n).toList
  | .decimal d => d.text.toList

def scalarChars : Json → List Char
  | .null => ['n', 'u', 'l', 'l']
  | .bool true => ['t', 'r', 'u', 'e']
  | .bool false => ['f', 'a', 'l', 's', 'e']
  | .number n => numberChars n
  | .string s => quoted s
  | _ => []

/-! ## On one line -/

mutual
/-- A value on one line. -/
def compactChars : Json → List Char
  | .array items => '[' :: compactItems items
  | .object fields => '{' :: compactFields fields
  | j => scalarChars j
termination_by structural j => j
/-- The items of an array and its closing bracket. -/
def compactItems : List Json → List Char
  | [] => [']']
  | j :: rest => compactChars j ++ compactMoreItems rest
termination_by structural js => js
/-- The items behind another one and the closing bracket. -/
def compactMoreItems : List Json → List Char
  | [] => [']']
  | j :: rest => ',' :: (compactChars j ++ compactMoreItems rest)
termination_by structural js => js
/-- The fields of an object and its closing brace. -/
def compactFields : List (String × Json) → List Char
  | [] => ['}']
  | (key, j) :: rest => quoted key ++ ':' :: (compactChars j ++ compactMoreFields rest)
termination_by structural fields => fields
/-- The fields behind another one and the closing brace. -/
def compactMoreFields : List (String × Json) → List Char
  | [] => ['}']
  | (key, j) :: rest => ',' :: (quoted key ++ ':' :: (compactChars j ++ compactMoreFields rest))
termination_by structural fields => fields
end

/-- A value on one line. -/
def compact (j : Json) : String := String.ofList (compactChars j)

/-! ## Indented -/

/-- A new line within `level` open arrays and objects. -/
def newLine (level : Nat) : List Char := '\n' :: List.replicate (2 * level) ' '

mutual
/-- An indented value within `level` open arrays and objects. -/
def prettyChars (level : Nat) : Json → List Char
  | .array items => '[' :: prettyItems level items
  | .object fields => '{' :: prettyFields level fields
  | j => scalarChars j
termination_by structural j => j
/-- The items of an array and its closing bracket. -/
def prettyItems (level : Nat) : List Json → List Char
  | [] => [']']
  | j :: rest =>
    newLine (level + 1) ++ (prettyChars (level + 1) j ++ prettyMoreItems level rest)
termination_by structural js => js
/-- The items behind another one and the closing bracket. -/
def prettyMoreItems (level : Nat) : List Json → List Char
  | [] => newLine level ++ [']']
  | j :: rest =>
    ',' :: (newLine (level + 1) ++ (prettyChars (level + 1) j ++ prettyMoreItems level rest))
termination_by structural js => js
/-- The fields of an object and its closing brace. -/
def prettyFields (level : Nat) : List (String × Json) → List Char
  | [] => ['}']
  | (key, j) :: rest =>
    newLine (level + 1) ++ (quoted key ++
      ':' :: ' ' :: (prettyChars (level + 1) j ++ prettyMoreFields level rest))
termination_by structural fields => fields
/-- The fields behind another one and the closing brace. -/
def prettyMoreFields (level : Nat) : List (String × Json) → List Char
  | [] => newLine level ++ ['}']
  | (key, j) :: rest =>
    ',' :: (newLine (level + 1) ++ (quoted key ++
      ':' :: ' ' :: (prettyChars (level + 1) j ++ prettyMoreFields level rest)))
termination_by structural fields => fields
end

/-- An indented value. -/
def pretty (j : Json) : String := String.ofList (prettyChars 0 j)

/-! ## Keys in order -/

/-- A field in front of the first one with a later key. -/
def insertField (field : String × Json) : List (String × Json) → List (String × Json)
  | [] => [field]
  | other :: rest =>
    if other.1 ≤ field.1 then other :: insertField field rest else field :: other :: rest

mutual
/-- A value with the fields of every object in the order of their keys. -/
def sortKeys : Json → Json
  | .array items => .array (sortKeysItems items)
  | .object fields => .object (sortKeysFields fields)
  | j => j
termination_by structural j => j
def sortKeysItems : List Json → List Json
  | [] => []
  | j :: rest => sortKeys j :: sortKeysItems rest
termination_by structural js => js
def sortKeysFields : List (String × Json) → List (String × Json)
  | [] => []
  | (key, j) :: rest => insertField (key, sortKeys j) (sortKeysFields rest)
termination_by structural fields => fields
end

end MemoryGraph.Json
