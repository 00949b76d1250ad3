-- SUMMARY: Calls of tools and reading them from their arguments.
import MemoryGraph.Import.Mode
import MemoryGraph.Record.Refusal
import MemoryGraph.Server.Argument

/-!
# Calls

A call names a tool and gives its arguments as an object. Arguments that the
tool does not have are passed over. Documents and decisions are read later, when
the call is carried out.
-/
namespace MemoryGraph

/-- A call of a tool with its arguments. -/
inductive ToolCall where
  | searchNodes (query : String) (limit : Option Nat)
  | listRootNodes
  | exportNodes (ids : List Id)
  | listOrphans
  | previewImport (document : Json)
  | executeImport (document decisions : Json) (mode : Option ImportMode)
  | moveNode (node parent : Id)
  | mergeNodes (source target : Id)
  | deleteNode (node : Id) (cascade : Bool)
  | createEntity (input : EntityDraft)
  | updateEntity (id : Id) (update : EntityChange)
  | addObservations (id : Id) (contents : List String)
  | deleteObservation (id : Id)
  | createRelation (source target : Id) (relationType : String)
  | deleteRelation (id : Id)
  | openNode (id : Option Id) (name : Option String)
  | reindexEmbeddings (limit : Option Nat)
  | graphStats
  deriving Repr

/-- Why a call is refused. -/
inductive CallError where
  | unknownTool
  | malformedArguments (detail : String)
  | noIds
  | neitherIdNorName
  | graph (cause : Refusal)
  deriving DecidableEq, Repr

namespace CallError

/-- The number of an error towards clients: theirs, or one of the server. -/
def code : CallError → Int
  | .graph cause => if cause.isCallersFault then -32602 else -32603
  | _ => -32602

def message : CallError → String
  | .unknownTool => "tool not found"
  | .malformedArguments detail => s!"failed to deserialize parameters: {detail}"
  | .noIds => "entity_ids must not be empty"
  | .neitherIdNorName => "Provide entity_id or name"
  | .graph cause => cause.message

end CallError

/-- The mode that a value names exactly: by its text, or as the only key of an object. -/
def ImportMode.ofJson? : Json → Option ImportMode
  | .string name => ofLabel? name
  | .object fields =>
    match Json.lastFields fields with
    | [(name, .null)] => ofLabel? name
    | _ => none
  | _ => none

/-- The arguments of a call. -/
abbrev Arguments := List (String × Json)

namespace Arguments

/-- An argument, if it was given. -/
def get? (arguments : Arguments) (name : String) : Option Json := Json.lastField? name arguments

/-- What a reader makes of an argument, or the refusal that its type is another. -/
def read (arguments : Arguments) (name : String) (reader : Option Json → Option α) :
    Except CallError α :=
  match reader (arguments.get? name) with
  | some a => .ok a
  | none => .error (.malformedArguments s!"{name} is missing or of another type")

/-- A text that must be given. -/
def text (arguments : Arguments) (name : String) : Except CallError String :=
  arguments.read name fun j => j.bind Json.string?

/-- A text that may be left out. -/
def text? (arguments : Arguments) (name : String) : Except CallError (Option String) :=
  arguments.read name (Json.optional? Json.string?)

/-- Texts that must be given. -/
def texts (arguments : Arguments) (name : String) : Except CallError (List String) :=
  arguments.read name fun j => j.bind Json.strings?

/-- A value of any kind that must be given. -/
def value (arguments : Arguments) (name : String) : Except CallError Json :=
  arguments.read name id

/-- What a lenient reader makes of an argument. -/
def lenient (result : Except ArgumentError α) : Except CallError α :=
  result.mapError fun e => .malformedArguments e.message

/-- An id that must be given. -/
def id (arguments : Arguments) (name : String) : Except CallError Id :=
  lenient (Argument.required name (Argument.integer .signed64) (arguments.get? name))

/-- An id that may be left out. -/
def id? (arguments : Arguments) (name : String) : Except CallError (Option Id) :=
  lenient (Argument.optionalInteger .signed64 (arguments.get? name))

/-- Ids that must be given. -/
def ids (arguments : Arguments) (name : String) : Except CallError (List Id) :=
  lenient (Argument.required name Argument.ids (arguments.get? name))

/-- A limit that may be left out. -/
def limit? (arguments : Arguments) (name : String) : Except CallError (Option Nat) :=
  (lenient (Argument.optionalInteger .unsigned64 (arguments.get? name))).map
    (Option.map Int.toNat)

/-- A truth value that is false when it is left out. -/
def flag (arguments : Arguments) (name : String) : Except CallError Bool :=
  arguments.read name (Json.defaulted? false Json.bool?)

end Arguments

/-- The call of a tool by its name. -/
def ToolCall.read (tool : String) (arguments : Arguments) : Except CallError ToolCall := do
  match tool with
  | "search_nodes" => return .searchNodes (← arguments.text "query") (← arguments.limit? "limit")
  | "list_root_nodes" => return .listRootNodes
  | "export_nodes" => return .exportNodes (← arguments.ids "entity_ids")
  | "list_orphans" => return .listOrphans
  | "preview_import" => return .previewImport (← arguments.value "document")
  | "execute_import" =>
    return .executeImport (← arguments.value "document")
      ((arguments.get? "decisions").getD .null)
      (← arguments.read "mode" (Json.optional? ImportMode.ofJson?))
  | "move_node" => return .moveNode (← arguments.id "node_id") (← arguments.id "parent_id")
  | "merge_nodes" => return .mergeNodes (← arguments.id "source_id") (← arguments.id "target_id")
  | "delete_node" => return .deleteNode (← arguments.id "node_id") (← arguments.flag "cascade")
  | "create_entity" =>
    return .createEntity
      { name := ← arguments.text "name"
        entityType := ← arguments.text "entity_type"
        aliases := ← arguments.text? "aliases"
        description := ← arguments.text? "description"
        observations := ← arguments.read "observations" (Json.defaulted? [] Json.strings?) }
  | "update_entity" =>
    return .updateEntity (← arguments.id "entity_id")
      { name := ← arguments.text? "name"
        entityType := ← arguments.text? "entity_type"
        aliases := ← arguments.text? "aliases"
        description := ← arguments.text? "description" }
  | "add_observations" =>
    return .addObservations (← arguments.id "entity_id") (← arguments.texts "observations")
  | "delete_observation" => return .deleteObservation (← arguments.id "observation_id")
  | "create_relation" =>
    return .createRelation (← arguments.id "from_id") (← arguments.id "to_id")
      (← arguments.text "relation_type")
  | "delete_relation" => return .deleteRelation (← arguments.id "relation_id")
  | "open_node" => return .openNode (← arguments.id? "entity_id") (← arguments.text? "name")
  | "reindex_embeddings" => return .reindexEmbeddings (← arguments.limit? "limit")
  | "graph_stats" => return .graphStats
  | _ => throw .unknownTool

end MemoryGraph
