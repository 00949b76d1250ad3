-- SUMMARY: Deleting an entity alone or with everything below it.
import MemoryGraph.Store.Rows

/-!
# Deleting nodes

Deleting a node alone leaves its children as roots. Deleting it in cascade also
removes every entity from which the node is reached by following links from
child to parent, in any number of steps; the search marks what it has seen, so
that it ends on cycles too.
-/
namespace MemoryGraph.Store

open Text

/-- The children of an entity that are not among `seen`, each once. -/
def newChildren (s : Store) (seen : List Id) (parent : Id) : List Id :=
  distinct (((s.relationsFromChildren parent).map (·.source)).filter (fun id => !seen.contains id))

/-- The relations that start at an entity not among `seen`. -/
def unseenSources (s : Store) (seen : List Id) : List Relation :=
  s.relations.filter (fun r => !seen.contains r.source)

theorem length_unseenSources_lt {s : Store} {seen : List Id} {parent : Id}
    (hne : s.newChildren seen parent ≠ []) :
    (s.unseenSources (seen ++ s.newChildren seen parent)).length
      < (s.unseenSources seen).length := by
  match hc : s.newChildren seen parent, hne with
  | child :: others, _ =>
    have hfirst : child ∈ (s.relationsFromChildren parent).map (·.source) ∧ child ∉ seen := by
      have hhead : ((((s.relationsFromChildren parent).map (·.source)).filter
          (fun id => !seen.contains id)).head?) = some child := by
        unfold newChildren distinct at hc
        cases hf : ((s.relationsFromChildren parent).map (·.source)).filter
            (fun id => !seen.contains id) with
        | nil => rw [hf] at hc; simp [distinctBy] at hc
        | cons a as => rw [hf] at hc; simp [distinctBy] at hc; simp [hc.1]
      have hmem := List.mem_of_head? hhead
      rw [List.mem_filter] at hmem
      simpa using hmem
    obtain ⟨hchild, hnew⟩ := hfirst
    obtain ⟨r, hr, hsource⟩ := List.mem_map.1 hchild
    have hrel : r ∈ s.relations := (List.mem_filter.1 hr).1
    have hsplit : s.unseenSources (seen ++ child :: others)
        = (s.unseenSources seen).filter (fun r => !(child :: others).contains r.source) := by
      simp only [unseenSources, List.filter_filter]
      apply List.filter_congr
      intro x _
      simp [Bool.and_comm]
    rw [hsplit]
    apply List.length_filter_lt_length_iff_exists.2
    refine ⟨r, ?_, ?_⟩
    · simp [unseenSources, hrel, hsource, hnew]
    · simp [hsource]

/-- Everything below the entities of a stack, found after what was `seen`. -/
def collectBelow (s : Store) (seen : List Id) : List Id → List Id
  | [] => seen
  | node :: stack =>
    let found := s.newChildren seen node
    if _hfound : found = [] then collectBelow s seen stack
    else collectBelow s (seen ++ found) (found.reverse ++ stack)
termination_by stack => ((s.unseenSources seen).length, stack.length)
decreasing_by
  · exact Prod.Lex.right _ (by simp)
  · exact Prod.Lex.left _ _ (length_unseenSources_lt _hfound)

/-- A node and everything below it, the node first. -/
def subtree (s : Store) (node : Id) : List Id := s.collectBelow [node] [node]

/-- Delete entities one after the other. -/
def deleteAll : List Id → Store → Except Refusal Store
  | [], s => .ok s
  | id :: rest, s => do deleteAll rest (← s.deleteEntity id)

/-- Delete a node, in cascade with everything below it; the result is how many entities went. What
was found last goes first. -/
def prune (node : Id) (cascade : Bool) (s : Store) : Except Refusal (Nat × Store) := do
  let _ ← s.existing node
  let doomed := if cascade then s.subtree node else [node]
  let s := if cascade then s else s.releaseChildren node
  return (doomed.length, ← deleteAll doomed.reverse s)

end MemoryGraph.Store
