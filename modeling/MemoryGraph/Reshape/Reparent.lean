-- SUMMARY: Moving a node of the tree under another parent.
import MemoryGraph.Store.Rows

/-!
# Moving a node

A moved node loses all links to its parents and gets one to its new parent. Its
lateral relations and its own children stay with it.
-/
namespace MemoryGraph.Store

/-- Remove the relations that lead from an entity to its parents. -/
def releaseFromParents (s : Store) (node : Id) : Store :=
  (s.relationsToParents node).foldl (fun s r => s.removeRelation r.id) s

/-- Put a node under a parent that it is not under yet. -/
def reparent (now : Timestamp) (node parent : Id) (s : Store) :
    Except Refusal (Relation × Store) := do
  if node = parent then throw .moveUnderItself
  let _ ← s.existing node
  let _ ← s.existing parent
  if (s.relationBetween? node parent usualUpwardType).isSome then
    throw (.alreadyUnder node parent)
  match ← (s.releaseFromParents node).appendRelation now node parent usualUpwardType with
  | (some relation, s) => return (relation, s)
  | (none, _) => throw (.vanishedRelation node parent)

end MemoryGraph.Store
