-- SUMMARY: The store: three tables with the next id of each, and the questions one can ask of it.
import MemoryGraph.Record.Refusal

/-!
# The store

The store holds a table of entities, one of observations and one of relations,
each in the order of ids, and the id that the next row of each table gets. Ids
only grow, so that no id names two records over time.
-/
namespace MemoryGraph

open Text

/-- The tables of the graph. -/
structure Store where
  entities : List Entity := []
  observations : List Observation := []
  relations : List Relation := []
  nextEntity : Id := 1
  nextObservation : Id := 1
  nextRelation : Id := 1
  deriving DecidableEq, Repr

namespace Store

/-- The store before anything was remembered. -/
def empty : Store := {}

/-! ## Entities -/

/-- The entity of an id. -/
def entity? (s : Store) (id : Id) : Option Entity := s.entities.find? (fun e => e.id = id)

theorem entity?_id {s : Store} {id : Id} {e : Entity} (h : s.entity? id = some e) : e.id = id := by
  simpa using List.find?_some h

/-- The entity of an id, or the refusal that it is not there. -/
def existing (s : Store) (id : Id) : Except Refusal Entity :=
  match s.entity? id with
  | some e => .ok e
  | none => .error (.notFound (.entity id))

/-- The first entity with exactly this name. -/
def entityNamed? (s : Store) (name : String) : Option Entity :=
  s.entities.find? (fun e => e.name = name)

/-- The first entity with exactly this name and type. -/
def entityOf? (s : Store) (name entityType : String) : Option Entity :=
  s.entities.find? (fun e => e.name = name && e.entityType = entityType)

/-- Names are ordered with the ASCII capitals folded, and equal ones by id. -/
def nameOrder (a b : Entity) : Bool :=
  foldAscii a.name < foldAscii b.name || (foldAscii a.name = foldAscii b.name && a.id ≤ b.id)

/-- Entities in the order of their names. -/
def byName (entities : List Entity) : List Entity := entities.mergeSort nameOrder

/-- All entities in the order of their names. -/
def entitiesByName (s : Store) : List Entity := byName s.entities

/-- The entities of a type in the order of their names. -/
def ofType (s : Store) (entityType : String) : List Entity :=
  byName (s.entities.filter (fun e => e.entityType = entityType))

/-! ## Observations -/

/-- The observations of an entity. -/
def observationsOf (s : Store) (id : Id) : List Observation :=
  s.observations.filter (fun o => o.entityId = id)

/-- What the observations of an entity say. -/
def contentsOf (s : Store) (id : Id) : List String := (s.observationsOf id).map (·.content)

/-! ## Relations -/

/-- The relation of an id. -/
def relation? (s : Store) (id : Id) : Option Relation := s.relations.find? (fun r => r.id = id)

/-- The relation of an id, or the refusal that it is not there. -/
def existingRelation (s : Store) (id : Id) : Except Refusal Relation :=
  match s.relation? id with
  | some r => .ok r
  | none => .error (.notFound (.relation id))

/-- The relation with the given ends and type. -/
def relationBetween? (s : Store) (source target : Id) (relationType : String) : Option Relation :=
  s.relations.find? (fun r => r.links source target relationType)

/-- The relations that lead from an entity to its parents. -/
def relationsToParents (s : Store) (child : Id) : List Relation :=
  s.relations.filter (fun r => r.source = child && r.isUpward)

/-- The relations that lead to an entity from its children. -/
def relationsFromChildren (s : Store) (parent : Id) : List Relation :=
  s.relations.filter (fun r => r.target = parent && r.isUpward)

/-- The lateral relations that leave an entity. -/
def relationsAside (s : Store) (id : Id) : List Relation :=
  s.relations.filter (fun r => r.source = id && !r.isUpward)

/-- The relations with an entity at one of their ends. -/
def relationsAt (s : Store) (id : Id) : List Relation :=
  s.relations.filter (fun r => r.touches id)

/-- Whether no relation leads from an entity to a parent. -/
def isRoot (s : Store) (id : Id) : Bool := (s.relationsToParents id).isEmpty

/-- The entities without a parent in the order of their names. -/
def parentless (s : Store) : List Entity := byName (s.entities.filter (fun e => s.isRoot e.id))

/-- How many records of each kind there are. -/
def counts (s : Store) : RecordCounts :=
  ⟨s.entities.length, s.observations.length, s.relations.length⟩

end Store
end MemoryGraph
