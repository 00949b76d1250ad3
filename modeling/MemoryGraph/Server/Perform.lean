-- SUMMARY: Carrying out the calls of tools.
import MemoryGraph.Import.Comparison
import MemoryGraph.Import.Run
import MemoryGraph.Number.Double
import MemoryGraph.Reshape.Merge
import MemoryGraph.Reshape.Prune
import MemoryGraph.Reshape.Reparent
import MemoryGraph.Search.Fusion
import MemoryGraph.Server.Call
import MemoryGraph.Store.Edit
import MemoryGraph.Suggestion
import MemoryGraph.Tree.OfStore

/-!
# Carrying out calls

A call gives a text for the reader and a value for the program, and the store
after it; a call that is refused leaves the store alone. Calls that change the
texts of entities embed them again.
-/
namespace MemoryGraph

/-- What the server works with besides the store. -/
structure Server where
  embedder : Embedder := .disabled
  searchLimit : Nat := 20
  importMode : ImportMode := .bestEffort

/-- The answer to a call. -/
structure ToolResult where
  text : String
  value : Json
  deriving Repr

/-- How many entities are embedded when no limit is given. -/
def embedBatch : Nat := 100

/-- An entity in one line. -/
def Entity.line (e : Entity) : String := s!"#{e.id} {e.name} [{e.entityType}]"

/-- Lines one below the other. -/
def unlines (lines : List String) : String := "\n".intercalate lines

/-- A double as a JSON number. -/
def Json.double (x : Float) : Json := .number (.decimal (Double.shortest x))

def Ranked.toJson (r : Ranked Float) : Json :=
  .object [("entity", r.entity.toJson), ("score", Json.double r.score),
    ("matched_fields", Json.list SearchField.toJson r.fields)]

/-- An orphan and its suggestions in one line. -/
def OrphanAdvice.line (advice : OrphanAdvice) : String :=
  let suggestions := advice.suggestions.map fun m => s!"{m.projectName} ({m.score})"
  advice.entity.line ++ " -> " ++ ", ".intercalate suggestions

/-- The counts of a comparison in one line. -/
def ComparisonCounts.line (s : ComparisonCounts) : String :=
  s!"{s.total} nodes: {s.high} high, {s.low} low, {s.new} new; children: {s.create} create, "
    ++ s!"{s.addRelation} add_relation, {s.skip} skip"

/-- The counts of an import, and its failures line by line. -/
def ImportReport.lines (report : ImportReport) : List String :=
  let verdict :=
    if report.rolledBack then "Rolled back"
    else if report.success then "Imported"
    else "Imported with errors"
  let counts :=
    s!"{verdict}: {report.created} created, {report.merged} merged, {report.skipped} skipped, "
      ++ s!"{report.observations} observations, {report.relations} relations"
  counts :: report.failures.map fun failure => "- " ++ failure.message

namespace Server

/-- Embed entities again whose text has changed. The change itself stands in any case. -/
def refresh (server : Server) (ids : List Id) (s : Store) : Store :=
  match s.embedAgain server.embedder ids with
  | .ok (_, s) => s
  | .error _ => s

/-- The refusals of the graph as refusals of a call. -/
def lift (result : Except Refusal α) : Except CallError α := result.mapError .graph

/-- The entity that is asked for by its id, or else by its name. -/
def find (id : Option Id) (name : Option String) (s : Store) : Except CallError Entity :=
  match id, name with
  | some id, _ => lift (s.existing id)
  | none, some name =>
    match s.entityNamed? name with
    | some e => .ok e
    | none => .error (.graph (.notFound (.entityNamed name)))
  | none, none => .error .neitherIdNorName

/-- Carry out a call. -/
def perform (server : Server) (now : Timestamp) (call : ToolCall) (s : Store) :
    Except CallError (ToolResult × Store) := do
  match call with
  | .searchNodes query limit =>
    let found : List (Ranked Float) :=
      s.rank server.embedder query (limit.getD server.searchLimit)
    let lines := found.map fun r => s!"{r.entity.line} score {Double.fixed 4 r.score}"
    let text := if lines.isEmpty then "No matches" else unlines lines
    return (⟨text, .object [("results", Json.list Ranked.toJson found)]⟩, s)
  | .listRootNodes =>
    return (⟨unlines (s.roots.map Entity.line),
      .object [("root_nodes", Json.list Entity.toJson s.roots)]⟩, s)
  | .exportNodes ids =>
    if ids.isEmpty then throw .noIds
    let document := s.exportTrees now ids
    return (⟨document.toSortedText, document.toJson⟩, s)
  | .listOrphans =>
    return (⟨unlines (s.orphanAdvice.map OrphanAdvice.line),
      .object [("orphans", Json.list OrphanAdvice.toJson s.orphanAdvice)]⟩, s)
  | .previewImport document =>
    let document ← lift (TreeDocument.ofJsonOrText document)
    let comparison := s.compareDocument document
    return (⟨comparison.summary.line, comparison.toJson⟩, s)
  | .executeImport document decisions mode =>
    let document ← lift (TreeDocument.ofJsonOrText document)
    let decisions ← lift (Decisions.ofJson decisions)
    let (report, s) := s.runImport now document decisions (mode.getD server.importMode)
    return (⟨unlines report.lines, report.toJson⟩, server.refresh report.touched s)
  | .moveNode node parent =>
    let (relation, s) ← lift (s.reparent now node parent)
    return (⟨s!"Moved #{node} under #{parent}", .object [("relation", relation.toJson)]⟩, s)
  | .mergeNodes source target =>
    let (report, s) ← lift (s.mergeEntities now source target)
    let text := s!"Merged #{source} into #{target}: {report.observationsMoved} observations moved, "
      ++ s!"{report.relationsRepointed} relations re-pointed, {report.relationsDropped} dropped"
    return (⟨text, report.toJson⟩, server.refresh [report.entity.id] s)
  | .deleteNode node cascade =>
    let (deleted, s) ← lift (s.prune node cascade)
    return (⟨s!"Deleted {deleted} entities", .object [("deleted", .nat deleted)]⟩, s)
  | .createEntity input =>
    let (e, s) ← lift (s.addEntity now input)
    let (_, s) ← lift (s.embedOne server.embedder e)
    return (⟨s!"Created #{e.id} {e.name}", .object [("entity", e.toJson)]⟩, s)
  | .updateEntity id update =>
    let (e, s) ← lift (s.changeEntity now id update)
    let (_, s) ← lift (s.embedOne server.embedder e)
    return (⟨s!"Updated #{e.id} {e.name}", .object [("entity", e.toJson)]⟩, s)
  | .addObservations id contents =>
    let (added, s) ← lift (s.observe now id contents)
    return (⟨s!"Added {added.length} observations to #{id}",
      .object [("added", Json.list Observation.toJson added)]⟩, s)
  | .deleteObservation id =>
    let s ← lift (s.dropObservation now id)
    return (⟨s!"Deleted observation #{id}", .object [("deleted", .int id)]⟩, s)
  | .createRelation source target relationType =>
    let (relation, s) ← lift (s.relate now source target relationType)
    let text := match relation with
      | some r => s!"Created relation #{r.id}"
      | none => "Relation already exists"
    return (⟨text, .object [("relation", Json.orNull Relation.toJson relation)]⟩, s)
  | .deleteRelation id =>
    let s ← lift (s.dropRelation id)
    return (⟨s!"Deleted relation #{id}", .object [("deleted", .int id)]⟩, s)
  | .openNode id name =>
    let e ← find id name s
    let observations := s.observationsOf e.id
    let aliases := e.aliases.toList.map ("aliases: " ++ ·)
    let contents := observations.map fun o => "- " ++ o.content
    return (⟨unlines (e.line :: aliases ++ contents),
      .object [("entity", e.toJson), ("observations", Json.list Observation.toJson observations),
        ("relations", Json.list Relation.toJson (s.relationsAt e.id))]⟩, s)
  | .reindexEmbeddings limit =>
    let (updated, s) ← lift (s.embedMissing server.embedder (limit.getD embedBatch))
    return (⟨s!"Embedded {updated} entities",
      .object [("updated", .nat updated), ("vector_enabled", .bool server.embedder.isEnabled)]⟩, s)
  | .graphStats =>
    let stats := s.counts
    return (⟨s!"{stats.entities} entities, {stats.observations} observations, "
      ++ s!"{stats.relations} relations", stats.toJson⟩, s)

end Server
end MemoryGraph
