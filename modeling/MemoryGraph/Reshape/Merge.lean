-- SUMMARY: Merging one entity into another.
import MemoryGraph.Record.Encoding
import MemoryGraph.Store.Rows

/-!
# Merging entities

A merged entity hands its aliases, its name, its observations and its relations
over to another one and is removed. A relation between the two is dropped, and
of two relations that become alike the one with the lower id stays.
-/
namespace MemoryGraph

/-- What a merge did. -/
structure MergeEffect where
  source : Id
  target : Id
  observationsMoved : Nat
  relationsRepointed : Nat
  relationsDropped : Nat
  aliases : Option String
  entity : Entity
  deriving DecidableEq, Repr

def MergeEffect.toJson (report : MergeEffect) : Json :=
  .object [("source_id", .int report.source), ("target_id", .int report.target),
    ("observations_moved", .nat report.observationsMoved),
    ("relations_repointed", .nat report.relationsRepointed),
    ("relations_dropped", .nat report.relationsDropped),
    ("aliases", Json.orNull .string report.aliases), ("target", report.entity.toJson)]

namespace Store

/-- How many relations were kept with new ends and how many were dropped. -/
structure Repointed where
  kept : Nat := 0
  dropped : Nat := 0
  deriving DecidableEq, Repr

/-- The id `target` in place of the id `source`. -/
def substitute (source target id : Id) : Id := if id = source then target else id

/-- Hand one relation of `source` over to `target`. -/
def repointOne (source target : Id) (relation : Relation) (count : Repointed) (s : Store) :
    Except Refusal (Repointed × Store) := do
  let from' := substitute source target relation.source
  let to' := substitute source target relation.target
  if from' = to' then
    return ({ count with dropped := count.dropped + 1 }, s.removeRelation relation.id)
  else match s.relationBetween? from' to' relation.relationType with
    | none =>
      let s ← s.redirectRelation relation from' to'
      return ({ count with kept := count.kept + 1 }, s)
    | some existing =>
      let count := { count with dropped := count.dropped + 1 }
      if existing.id < relation.id then
        return (count, s.removeRelation relation.id)
      else
        let s ← (s.removeRelation existing.id).redirectRelation relation from' to'
        return ({ count with kept := count.kept + 1 }, s)

/-- Hand relations of `source` over to `target` one after the other. -/
def repointAll (source target : Id) :
    List Relation → Repointed → Store → Except Refusal (Repointed × Store)
  | [], count, s => .ok (count, s)
  | relation :: rest, count, s => do
    let (count, s) ← s.repointOne source target relation count
    repointAll source target rest count s

/-- The aliases that `target` has once `source` is merged into it: its own, those of `source`, and
the name of `source`. -/
def mergedAliases (source target : Entity) : Option String :=
  aliasUnionText (target.aliases.toList ++ source.aliases.toList
    ++ (if source.name = target.name then [] else [source.name]))

/-- Merge the entity `sourceId` into the entity `targetId`. -/
def mergeEntities (now : Timestamp) (sourceId targetId : Id) (s : Store) :
    Except Refusal (MergeEffect × Store) := do
  if sourceId = targetId then throw .mergeIntoItself
  let source ← s.existing sourceId
  let target ← s.existing targetId
  let aliases := mergedAliases source target
  let moved := (s.observationsOf sourceId).length
  let s := s.modifyEntity targetId fun e => { e with aliases, updatedAt := now }
  let s := s.handOverObservations sourceId targetId
  let (count, s) ← s.repointAll sourceId targetId (s.relationsAt sourceId) {}
  let s := s.refreshCount now targetId
  let s ← s.deleteEntity sourceId
  let entity ← s.existing targetId
  return ({ source := sourceId, target := targetId, observationsMoved := moved,
            relationsRepointed := count.kept, relationsDropped := count.dropped, aliases, entity },
    s)

end Store
end MemoryGraph
