-- SUMMARY: The writes to the rows of the store, with the checks that each of them makes.
import MemoryGraph.Record.Validation
import MemoryGraph.Store.Basic

/-!
# Rows

Rows are added at the end of their table under its next id. Removing an entity
takes its observations and relations with it. A write that a check refuses gives
no store, so that nothing of it remains.
-/
namespace MemoryGraph.Store

open Text

/-! ## Entities -/

/-- Change the row of an entity. -/
def modifyEntity (s : Store) (id : Id) (change : Entity → Entity) : Store :=
  { s with entities := s.entities.map (fun e => if e.id = id then change e else e) }

/-- Add an entity without observations of its own; those that will follow are checked too. -/
def appendEntity (now : Timestamp) (input : EntityDraft) (s : Store) :
    Except Refusal (Entity × Store) := do
  Field.entityName.validate input.name
  Field.entityType.validate input.entityType
  input.observations.forM Field.observation.validate
  let entity : Entity :=
    { id := s.nextEntity
      name := trim input.name
      entityType := trim input.entityType
      aliases := nonBlank? input.aliases
      description := nonBlank? input.description
      createdAt := now
      updatedAt := now }
  return (entity, { s with entities := s.entities ++ [entity], nextEntity := s.nextEntity + 1 })

/-- Remove an entity with its observations and relations. -/
def removeEntity (s : Store) (id : Id) : Store :=
  { s with
    entities := s.entities.filter (fun e => e.id ≠ id)
    observations := s.observations.filter (fun o => o.entityId ≠ id)
    relations := s.relations.filter (fun r => !r.touches id) }

/-- Remove an entity that must be there. -/
def deleteEntity (s : Store) (id : Id) : Except Refusal Store :=
  if (s.entity? id).isSome then .ok (s.removeEntity id) else .error (.notDeleted id)

/-! ## Observations -/

/-- Add an observation; a moment that is given counts, unless it is blank. -/
def appendObservation (now : Timestamp) (entityId : Id) (draft : ObservationDraft) (s : Store) :
    Except Refusal (Observation × Store) := do
  Field.observation.validate draft.content
  let row : Observation :=
    { id := s.nextObservation
      entityId
      content := draft.content
      createdAt := match draft.createdAt with
        | some moment => if allBlank moment then now else moment
        | none => now }
  return (row,
    { s with observations := s.observations ++ [row], nextObservation := s.nextObservation + 1 })

/-- Add observations one after the other. -/
def appendObservations (now : Timestamp) (entityId : Id) :
    List ObservationDraft → Store → Except Refusal (List Observation × Store)
  | [], s => .ok ([], s)
  | draft :: rest, s => do
    let (row, s) ← s.appendObservation now entityId draft
    let (rows, s) ← appendObservations now entityId rest s
    return (row :: rows, s)

/-- The drafts that say something new, neither among `known` nor in an earlier draft. -/
def unseen (known : List String) : List ObservationDraft → List ObservationDraft
  | [] => []
  | draft :: rest =>
    if known.contains draft.content then unseen known rest
    else draft :: unseen (draft.content :: known) rest

/-- Count the observations of an entity again. -/
def refreshCount (now : Timestamp) (s : Store) (id : Id) : Store :=
  s.modifyEntity id fun e =>
    { e with observationCount := (s.observationsOf id).length, updatedAt := now }

/-- Remove an observation. -/
def removeObservation (s : Store) (id : Id) : Store :=
  { s with observations := s.observations.filter (fun o => o.id ≠ id) }

/-- Give the observations of one entity to another. -/
def handOverObservations (s : Store) (source target : Id) : Store :=
  { s with
    observations := s.observations.map fun o =>
      if o.entityId = source then { o with entityId := target } else o }

/-! ## Relations -/

/-- Add a relation. One that is there already is not added again, but takes an id all the same. -/
def appendRelation (now : Timestamp) (source target : Id) (relationType : String) (s : Store) :
    Except Refusal (Option Relation × Store) := do
  Field.relationType.validate relationType
  if source = target then throw (.selfRelation relationType source)
  let row : Relation :=
    { id := s.nextRelation, source, target, relationType := trim relationType, createdAt := now }
  let next := { s with nextRelation := s.nextRelation + 1 }
  if (s.relationBetween? source target row.relationType).isSome then
    return (none, next)
  else if (s.entity? source).isNone || (s.entity? target).isNone then
    throw (.unknownEnds source target)
  else
    return (some row, { next with relations := s.relations ++ [row] })

/-- Remove a relation. -/
def removeRelation (s : Store) (id : Id) : Store :=
  { s with relations := s.relations.filter (fun r => r.id ≠ id) }

/-- Give a relation other ends, which must exist and must not be linked alike already. -/
def redirectRelation (s : Store) (relation : Relation) (source target : Id) :
    Except Refusal Store :=
  let isTaken (r : Relation) : Bool :=
    r.id ≠ relation.id && r.links source target relation.relationType
  if s.relations.any isTaken then .error (.violated .uniqueRelation)
  else if (s.entity? source).isNone || (s.entity? target).isNone then
    .error (.violated .knownEntity)
  else
    .ok { s with
      relations := s.relations.map fun r =>
        if r.id = relation.id then { r with source, target } else r }

/-- Remove the relations that lead to an entity from its children. -/
def releaseChildren (s : Store) (parent : Id) : Store :=
  { s with relations := s.relations.filter (fun r => !(r.target = parent && r.isUpward)) }

end MemoryGraph.Store
