-- SUMMARY: Ranking entities by the distance of their vectors to that of a query.
import MemoryGraph.Embedding.Distance
import MemoryGraph.Embedding.Embedder

/-!
# Searching for meaning

The entities whose vectors are comparable with the vector of the query, the
nearest first. Without an embedder, or when it has no vector for the query,
nothing is found.
-/
namespace MemoryGraph

open Text

/-- An entity that was found with its distance to the query. -/
structure MeaningMatch where
  entity : Entity
  distance : Single
  deriving DecidableEq, Repr

/-- The order of a result: by rising distance. -/
def MeaningMatch.order (a b : MeaningMatch) : Bool := a.distance.orderKey ≤ b.distance.orderKey

/-- The entities nearest to a query, at most `limit`. -/
def Store.rankMeaning (s : Store) (embedder : Embedder) (query : String) (limit : Nat) :
    List MeaningMatch :=
  if limit = 0 ∨ allBlank query then []
  else match embedder.vector? query with
    | none => []
    | some wanted =>
      let found := s.withEmbedding.filterMap fun (e, v) =>
        (Embedding.distance? wanted v).map fun distance =>
          ({ entity := e, distance } : MeaningMatch)
      (found.mergeSort MeaningMatch.order).take limit

end MemoryGraph
