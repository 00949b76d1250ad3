-- SUMMARY: Alias lists kept as one text: splitting them and forming their union.
import MemoryGraph.Text.Case
import MemoryGraph.Text.Pieces

/-!
# Aliases

The aliases of an entity are kept as one text, separated by commas, bars or
semicolons. The union of several such texts keeps the first spelling of every
alias, two aliases being the same when their lowercase forms are.
-/
namespace MemoryGraph

open Text

/-- The characters that separate aliases. -/
def isAliasDelimiter (c : Char) : Bool := c = ',' || c = '|' || c = ';'

/-- The aliases of a text, trimmed, without empty ones. -/
def aliasesOf (aliases : String) : List String :=
  (((pieces isAliasDelimiter aliases.toList).map trimChars).filter (fun p => !p.isEmpty)).map
    String.ofList

/-- The aliases of several texts, of each the first spelling. -/
def aliasUnion (sources : List String) : List String :=
  distinctBy lower (sources.flatMap aliasesOf)

/-- The union of several alias texts as one text, or nothing when it is empty. -/
def aliasUnionText (sources : List String) : Option String :=
  match aliasUnion sources with
  | [] => none
  | aliases => some (", ".intercalate aliases)

end MemoryGraph
