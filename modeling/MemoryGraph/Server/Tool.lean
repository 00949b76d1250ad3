-- SUMMARY: The catalogue of the tools that the server offers.
import MemoryGraph.Json.Basic

/-!
# Tools

Each tool has a name, a description, and parameters of which some must be given.
-/
namespace MemoryGraph

/-- A parameter of a tool. -/
structure ToolParameter where
  name : String
  isRequired : Bool
  deriving DecidableEq, Repr

/-- What a client is told about a tool. -/
structure Tool where
  name : String
  description : String
  parameters : List ToolParameter
  deriving DecidableEq, Repr

namespace Tool

/-- A parameter that must be given. -/
def needed (name : String) : ToolParameter := ⟨name, true⟩

/-- A parameter that may be left out. -/
def extra (name : String) : ToolParameter := ⟨name, false⟩

/-- All tools in the order of their names. -/
def all : List Tool :=
  [{ name := "add_observations"
     description := "Attach observations to an entity; contents it already has are skipped."
     parameters := [needed "entity_id", needed "observations"] },
   { name := "create_entity"
     description := "Create an entity with optional aliases, description and initial observations."
     parameters :=
       [extra "aliases", extra "description", needed "entity_type", needed "name",
        extra "observations"] },
   { name := "create_relation"
     description := "Link two entities. part_of/depends_on read child (from) -> parent (to). "
       ++ "Duplicates are ignored."
     parameters := [needed "from_id", needed "relation_type", needed "to_id"] },
   { name := "delete_node"
     description := "Delete a node. Without cascade its children become roots; with cascade the "
       ++ "whole subtree goes."
     parameters := [extra "cascade", needed "node_id"] },
   { name := "delete_observation"
     description := "Delete one observation by id."
     parameters := [needed "observation_id"] },
   { name := "delete_relation"
     description := "Delete one relation by id."
     parameters := [needed "relation_id"] },
   { name := "execute_import"
     description := "Apply an export document using per-node decisions (create, merge, skip, "
       ++ "add_relation) keyed by node_path."
     parameters := [extra "decisions", needed "document", extra "mode"] },
   { name := "export_nodes"
     description := "Export entities and their subtrees (children and lateral links) as a "
       ++ "portable JSON tree."
     parameters := [needed "entity_ids"] },
   { name := "graph_stats"
     description := "Count entities, observations and relations."
     parameters := [] },
   { name := "list_orphans"
     description := "List non-Project roots with their top suggested parent Projects."
     parameters := [] },
   { name := "list_root_nodes"
     description := "List entities without a parent: Projects first, then everything else, by "
       ++ "name."
     parameters := [] },
   { name := "merge_nodes"
     description := "Merge source into target: aliases unioned, all observations and relations "
       ++ "moved, source deleted."
     parameters := [needed "source_id", needed "target_id"] },
   { name := "move_node"
     description := "Re-parent a node: drop its part_of/depends_on links and add part_of to the "
       ++ "new parent."
     parameters := [needed "node_id", needed "parent_id"] },
   { name := "open_node"
     description := "Show an entity (by id or exact name) with its observations and relations."
     parameters := [extra "entity_id", extra "name"] },
   { name := "preview_import"
     description := "Classify every node of an export document against the graph (high/low/new, "
       ++ "child actions) without writing."
     parameters := [needed "document"] },
   { name := "reindex_embeddings"
     description := "Compute embeddings for entities that have none (no-op when embeddings are "
       ++ "disabled)."
     parameters := [extra "limit"] },
   { name := "search_nodes"
     description := "Rank entities by name, type and aliases; fused with semantic similarity when "
       ++ "embeddings are enabled."
     parameters := [extra "limit", needed "query"] },
   { name := "update_entity"
     description := "Update an entity's name, type, aliases or description; omitted fields stay "
       ++ "unchanged."
     parameters :=
       [extra "aliases", extra "description", needed "entity_id", extra "entity_type",
        extra "name"] }]

/-- The names of the parameters, of all or of those that must be given. -/
def parameterNames (tool : Tool) (onlyRequired : Bool) : List String :=
  (tool.parameters.filter (fun p => p.isRequired || !onlyRequired)).map (·.name)

/-- The shape of the arguments of a tool. -/
def inputSchema (tool : Tool) : Json :=
  .object [("type", .string "object"),
    ("properties", .object ((tool.parameterNames false).map fun name => (name, .object []))),
    ("required", Json.list .string (tool.parameterNames true))]

end Tool

/-! ## The server -/

/-- The name that the server gives itself. -/
def serverName : String := "graph-memory-mcp"

/-- The version of the server. -/
def serverVersion : String := "0.1.0"

/-- What a client is told about the use of the server. -/
def serverInstructions : String :=
  "Long-term knowledge graph memory. Entities are linked child -> parent by part_of/depends_on "
    ++ "relations; use search_nodes to find them, export_nodes and "
    ++ "preview_import/execute_import to move subtrees, merge_nodes/move_node/delete_node to reorganize."

end MemoryGraph
