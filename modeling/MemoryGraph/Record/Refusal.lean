-- SUMMARY: Why an operation on the graph is refused, and the words that say so.
import MemoryGraph.Record.Basic

/-!
# Refusals

A refusal is named for its cause. Causes fall into five kinds; the first two are
the caller's doing. The wording is kept in one place.
-/
namespace MemoryGraph

/-- A record that is not there, as it was asked for. -/
inductive Missing where
  | entity (id : Id)
  | entityNamed (name : String)
  | observation (id : Id)
  | relation (id : Id)
  deriving DecidableEq, Repr

/-- The texts that are checked before they are stored. -/
inductive Field where
  | entityName
  | entityType
  | relationType
  | observation
  deriving DecidableEq, Repr

def Field.label : Field → String
  | .entityName => "Entity name"
  | .entityType => "Entity type"
  | .relationType => "Relation type"
  | .observation => "Observation"

/-- How many characters a text may have. -/
def Field.maxLength : Field → Nat
  | .entityName => 256
  | .entityType => 128
  | .relationType => 128
  | .observation => 4096

/-- What is wrong with a text. -/
inductive FieldFault where
  | blank
  | tooLong
  | forbiddenCharacter
  deriving DecidableEq, Repr

/-- What the rows of the store have to keep at every write. -/
inductive Constraint where
  | uniqueRelation
  | knownEntity
  deriving DecidableEq, Repr

/-- Why a path is refused for a database. -/
inductive PathFault where
  | noExtension
  | otherExtension
  deriving DecidableEq, Repr

/-- Why an operation is refused. -/
inductive Refusal where
  | notFound (what : Missing)
  | invalidField (field : Field) (fault : FieldFault)
  | nameTaken (name : String)
  | selfRelation (relationType : String) (id : Id)
  | unknownEnds (source target : Id)
  | violated (constraint : Constraint)
  | moveUnderItself
  | alreadyUnder (node parent : Id)
  | mergeIntoItself
  | invalidJson (detail : String)
  | missingRootNodes
  | malformedDocument
  | invalidDecisions
  | databasePath (fault : PathFault)
  | notDeleted (id : Id)
  | vanishedRelation (source target : Id)
  | directoryNotCreated (path detail : String)
  | notOpened (path : String)
  | notADatabase
  deriving DecidableEq, Repr

/-- The kinds of refusal. -/
inductive RefusalKind where
  | notFound
  | validationFailed
  | operationFailed
  | internal
  | pool
  deriving DecidableEq, Repr

def RefusalKind.label : RefusalKind → String
  | .notFound => "NotFound"
  | .validationFailed => "ValidationFailed"
  | .operationFailed => "OperationFailed"
  | .internal => "Internal"
  | .pool => "Pool"

def Missing.message : Missing → String
  | .entity id => s!"Entity {id} not found"
  | .entityNamed name => s!"Entity {name} not found"
  | .observation id => s!"Observation {id} not found"
  | .relation id => s!"Relation {id} not found"

def FieldFault.message (field : Field) : FieldFault → String
  | .blank => s!"{field.label} cannot be blank"
  | .tooLong => s!"{field.label} too long (max {field.maxLength} chars)"
  | .forbiddenCharacter =>
    if field = .observation then s!"{field.label} contains null bytes"
    else s!"{field.label} contains invalid characters"

def Constraint.message : Constraint → String
  | .uniqueRelation => "UNIQUE constraint failed: relations.from_entity_id, "
      ++ "relations.to_entity_id, relations.relation_type"
  | .knownEntity => "FOREIGN KEY constraint failed"

def PathFault.message : PathFault → String
  | .noExtension => "Database path must have .db extension"
  | .otherExtension => "Invalid database file extension (must be .db)"

namespace Refusal

def kind : Refusal → RefusalKind
  | .notFound _ => .notFound
  | .notDeleted _ => .operationFailed
  | .notOpened _ => .pool
  | .vanishedRelation _ _ | .directoryNotCreated _ _ | .notADatabase => .internal
  | _ => .validationFailed

/-- Whether the caller's input is at fault, and not the store. -/
def isCallersFault (e : Refusal) : Bool :=
  e.kind = .notFound || e.kind = .validationFailed

/-- The cause in words. -/
def detail : Refusal → String
  | .notFound what => what.message
  | .invalidField field fault => fault.message field
  | .nameTaken name => s!"Entity '{name}' already exists"
  | .selfRelation relationType id =>
    s!"Relation '{relationType}' cannot point entity {id} at itself"
  | .unknownEnds source target =>
    s!"Cannot create relation {source} -> {target}: one or both entities do not exist"
  | .violated broken => s!"constraint violated: {broken.message}"
  | .moveUnderItself => "Cannot move a node under itself"
  | .alreadyUnder node parent => s!"Entity {node} is already {usualUpwardType} {parent}"
  | .mergeIntoItself => "Cannot merge a node into itself"
  | .invalidJson detail => s!"Import document is not valid JSON: {detail}"
  | .missingRootNodes => "Import document must contain a root_nodes array"
  | .malformedDocument => "Malformed import document: a field is missing or of another type"
  | .invalidDecisions => "Invalid import decisions: a field is missing or of another type"
  | .databasePath fault => fault.message
  | .notDeleted id => s!"Entity {id} could not be deleted"
  | .vanishedRelation source target => s!"Relation {source} -> {target} vanished"
  | .directoryNotCreated path detail => s!"Failed to create {path}: {detail}"
  | .notOpened path =>
    s!"timed out waiting for connection: unable to open database file: {path}"
  | .notADatabase => "file is not a database"

/-- The whole message. -/
def message (e : Refusal) : String :=
  match e.kind with
  | .notFound => e.detail
  | .validationFailed => s!"Validation failed: {e.detail}"
  | .operationFailed => s!"Operation failed: {e.detail}"
  | .internal => s!"Internal error: {e.detail}"
  | .pool => s!"Database pool error: {e.detail}"

end Refusal
end MemoryGraph
