-- SUMMARY: The records of the graph as JSON values.
import MemoryGraph.Json.Basic
import MemoryGraph.Record.Basic

/-!
# Records as JSON

Optional texts that are absent are left out of an entity.
-/
namespace MemoryGraph

def Entity.toJson (e : Entity) : Json :=
  .object (
    [("id", .int e.id), ("name", .string e.name), ("entity_type", .string e.entityType)]
      ++ Json.optionalField "aliases" .string e.aliases
      ++ Json.optionalField "description" .string e.description
      ++ [("observation_count", .nat e.observationCount), ("created_at", .string e.createdAt),
        ("updated_at", .string e.updatedAt)])

def Observation.toJson (o : Observation) : Json :=
  .object [("id", .int o.id), ("entity_id", .int o.entityId), ("content", .string o.content),
    ("created_at", .string o.createdAt)]

def Relation.toJson (r : Relation) : Json :=
  .object [("id", .int r.id), ("from_entity_id", .int r.source), ("to_entity_id", .int r.target),
    ("relation_type", .string r.relationType), ("created_at", .string r.createdAt)]

def RecordCounts.toJson (stats : RecordCounts) : Json :=
  .object [("entities", .nat stats.entities), ("observations", .nat stats.observations),
    ("relations", .nat stats.relations)]

end MemoryGraph
