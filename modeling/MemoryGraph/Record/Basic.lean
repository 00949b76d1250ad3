-- SUMMARY: The records of the graph: entities, observations, relations, and what is given to create or change them.
import MemoryGraph.Number.Single
import MemoryGraph.Record.Alias

/-!
# Records of the graph

The graph holds entities, observations that belong to one entity each, and
relations that lead from one entity to another. Relations of two types form the
tree: they lead from a child to its parent. All other relations are lateral.
-/
namespace MemoryGraph

/-- The number that names a record. -/
abbrev Id := Int

/-- A moment as the text that records it. -/
abbrev Timestamp := String

/-- The stored bytes of a vector. -/
abbrev Blob := List UInt8

/-- The relation type of a tree edge that names none. -/
def usualUpwardType : String := "part_of"

/-- The relation types that lead from a child to its parent. -/
def upwardTypes : List String := [usualUpwardType, "depends_on"]

/-- Whether a relation type leads from a child to its parent. -/
def isUpwardType (relationType : String) : Bool := upwardTypes.contains relationType

/-- The entity type of the entities at the top of trees. -/
def topType : String := "Project"

/-- A thing that is remembered. `observationCount` caches how many observations belong to it. -/
structure Entity where
  id : Id
  name : String
  entityType : String
  aliases : Option String := none
  description : Option String := none
  observationCount : Nat := 0
  embedding : Option Blob := none
  createdAt : Timestamp := ""
  updatedAt : Timestamp := ""
  deriving DecidableEq, Repr

namespace Entity

/-- The aliases of an entity one by one. -/
def aliasNames (e : Entity) : List String := (e.aliases.map aliasesOf).getD []

/-- Whether an entity is of the type that stands at the top of trees. -/
def isTop (e : Entity) : Bool := e.entityType = topType

end Entity

/-- A fact about one entity. -/
structure Observation where
  id : Id
  entityId : Id
  content : String
  createdAt : Timestamp
  deriving DecidableEq, Repr

/-- A typed link from one entity to another. -/
structure Relation where
  id : Id
  source : Id
  target : Id
  relationType : String
  createdAt : Timestamp
  deriving DecidableEq, Repr

namespace Relation

/-- Whether a relation leads from a child to its parent. -/
def isUpward (r : Relation) : Bool := isUpwardType r.relationType

/-- Whether an entity is at one of the ends of a relation. -/
def touches (r : Relation) (id : Id) : Bool := r.source = id || r.target = id

/-- Whether a relation has the given ends and type. -/
def links (r : Relation) (source target : Id) (relationType : String) : Bool :=
  r.source = source && r.target = target && r.relationType = relationType

end Relation

/-- An observation to be made, with its moment when that is known. -/
structure ObservationDraft where
  content : String
  createdAt : Option Timestamp := none
  deriving DecidableEq, Repr

/-- What is given to create an entity. -/
structure EntityDraft where
  name : String
  entityType : String
  aliases : Option String := none
  description : Option String := none
  observations : List String := []
  deriving DecidableEq, Repr

/-- What is given to change an entity; nothing leaves a field as it is. -/
structure EntityChange where
  name : Option String := none
  entityType : Option String := none
  aliases : Option String := none
  description : Option String := none
  deriving DecidableEq, Repr

/-- How many records of each kind there are. -/
structure RecordCounts where
  entities : Nat
  observations : Nat
  relations : Nat
  deriving DecidableEq, Repr

end MemoryGraph
