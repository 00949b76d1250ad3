-- SUMMARY: The operations that create and change single records.
import MemoryGraph.Store.Rows

/-!
# Editing records

Creating and changing entities, adding and deleting observations, and creating
and deleting relations. Every operation gives its result with the store after
it, or the cause of its refusal and no store.
-/
namespace MemoryGraph.Store

open Text

/-- Create an entity under a name that no entity has. -/
def addEntity (now : Timestamp) (input : EntityDraft) (s : Store) :
    Except Refusal (Entity × Store) := do
  if (s.entityNamed? (trim input.name)).isSome then throw (.nameTaken (trim input.name))
  let (entity, s) ← s.appendEntity now input
  let drafts := input.observations.map fun content => ({ content } : ObservationDraft)
  let (_, s) ← s.appendObservations now entity.id drafts
  let s := s.refreshCount now entity.id
  return (← s.existing entity.id, s)

/-- The name that an entity gets: a given one, when no other entity has it. -/
def renamed (s : Store) (current : Entity) : Option String → Except Refusal String
  | none => .ok current.name
  | some given => do
    Field.entityName.validate given
    let name := trim given
    if name ≠ current.name ∧ (s.entityNamed? name).any (fun other => other.id ≠ current.id) then
      throw (.nameTaken name)
    return name

/-- The type that an entity gets. -/
def retyped (current : Entity) : Option String → Except Refusal String
  | none => .ok current.entityType
  | some given => do
    Field.entityType.validate given
    return trim given

/-- Change the given fields of an entity; a blank alias or description text removes what was
there. -/
def changeEntity (now : Timestamp) (id : Id) (update : EntityChange) (s : Store) :
    Except Refusal (Entity × Store) := do
  let current ← s.existing id
  let name ← s.renamed current update.name
  let entityType ← retyped current update.entityType
  let aliases := if update.aliases.isSome then nonBlank? update.aliases else current.aliases
  let description :=
    if update.description.isSome then nonBlank? update.description else current.description
  let s := s.modifyEntity id fun e =>
    { e with name, entityType, aliases, description, updatedAt := now }
  return (← s.existing id, s)

/-- Add the observations that an entity does not have yet. -/
def observe (now : Timestamp) (id : Id) (contents : List String) (s : Store) :
    Except Refusal (List Observation × Store) := do
  let _ ← s.existing id
  let drafts := contents.map fun content => ({ content } : ObservationDraft)
  let (added, s) ← s.appendObservations now id (unseen (s.contentsOf id) drafts)
  return (added, s.refreshCount now id)

/-- Delete an observation. -/
def dropObservation (now : Timestamp) (id : Id) (s : Store) : Except Refusal Store :=
  match s.observations.find? (fun o => o.id = id) with
  | none => .error (.notFound (.observation id))
  | some row => .ok ((s.removeObservation id).refreshCount now row.entityId)

/-- Create a relation between two entities, or nothing when there is one already. -/
def relate (now : Timestamp) (source target : Id) (relationType : String) (s : Store) :
    Except Refusal (Option Relation × Store) := do
  let _ ← s.existing source
  let _ ← s.existing target
  s.appendRelation now source target relationType

/-- Delete a relation. -/
def dropRelation (id : Id) (s : Store) : Except Refusal Store := do
  let _ ← s.existingRelation id
  return s.removeRelation id

end MemoryGraph.Store
