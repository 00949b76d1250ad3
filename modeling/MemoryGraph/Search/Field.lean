-- SUMMARY: The fields of an entity that a search can match.
import MemoryGraph.Json.Basic
import MemoryGraph.Record.Basic

/-!
# Matched fields

A search says of each entity it finds what matched: its type, its name, its
aliases, or the meaning of its text.
-/
namespace MemoryGraph

/-- What a search matched. -/
inductive SearchField where
  | entityType
  | name
  | aliases
  | semantic
  deriving DecidableEq, Repr

namespace SearchField

def label : SearchField → String
  | .entityType => "entity_type"
  | .name => "name"
  | .aliases => "aliases"
  | .semantic => "semantic"

def toJson (field : SearchField) : Json := .string field.label

/-- The fields that are searched for words, the weightiest first. -/
def searched : List SearchField := [.entityType, .name, .aliases]

/-- The text of an entity in a field. -/
def text (e : Entity) : SearchField → String
  | .entityType => e.entityType
  | .name => e.name
  | .aliases => e.aliases.getD ""
  | .semantic => ""

end SearchField
end MemoryGraph
