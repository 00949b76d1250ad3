-- SUMMARY: Fusing a ranking by words and a ranking by meaning into one.
import MemoryGraph.Search.Meaning
import MemoryGraph.Search.Words

/-!
# Rank fusion

An entity gains the reciprocal of 61 at the first place of a ranking, of 62 at
the second, and so on, and the sum over both rankings is its score. The sums are
formed in any arithmetic with reciprocals: in doubles for the searches, and in
rational numbers where the exact ranking is asked for.
-/
namespace MemoryGraph

/-- Numbers in which ranks are added up. -/
class RankArithmetic (α : Type) where
  zero : α
  add : α → α → α
  reciprocal : Nat → α
  ofNat : Nat → α
  le : α → α → Bool

instance : RankArithmetic Float where
  zero := 0
  add := (· + ·)
  reciprocal n := 1 / Float.ofNat n
  ofNat := Float.ofNat
  le a b := a ≤ b

instance : RankArithmetic Rat where
  zero := 0
  add := (· + ·)
  reciprocal n := 1 / (n : Rat)
  ofNat n := n
  le a b := a ≤ b

/-- An entity in a fused ranking. -/
structure Ranked (α : Type) where
  entity : Entity
  score : α
  fields : List SearchField
  deriving Repr

section

variable {α : Type} [RankArithmetic α]

/-- What the place of an entity in a ranking is worth. The damping constant is 60. -/
def placeValue (place : Nat) : α := RankArithmetic.reciprocal (60 + place + 1)

/-- Fields with further ones that are not among them yet. -/
def addFields (fields more : List SearchField) : List SearchField :=
  more.foldl (fun known field => if known.contains field then known else known ++ [field]) fields

/-- Credit an entity with the worth of a place and what matched there. Its first credit brings it
into the ranking. -/
def credit (entity : Entity) (value : α) (matched : List SearchField) :
    List (Ranked α) → List (Ranked α)
  | [] =>
    [{ entity, score := RankArithmetic.add RankArithmetic.zero value,
       fields := addFields [] matched }]
  | ranked :: rest =>
    if ranked.entity.id = entity.id then
      { ranked with
        score := RankArithmetic.add ranked.score value
        fields := addFields ranked.fields matched } :: rest
    else ranked :: credit entity value matched rest

/-- All credits of a ranking by words, from a place on. -/
def creditWords (place : Nat) : List WordMatch → List (Ranked α) → List (Ranked α)
  | [], ranked => ranked
  | m :: rest, ranked =>
    creditWords (place + 1) rest (credit m.entity (placeValue place) m.fields ranked)

/-- All credits of a ranking by meaning, from a place on. -/
def creditMeaning (place : Nat) : List MeaningMatch → List (Ranked α) → List (Ranked α)
  | [], ranked => ranked
  | m :: rest, ranked =>
    creditMeaning (place + 1) rest (credit m.entity (placeValue place) [.semantic] ranked)

/-- The order of a fused ranking: by falling score. -/
def Ranked.order (a b : Ranked α) : Bool := RankArithmetic.le b.score a.score

/-- The fusion of two rankings, at most `limit` entities. -/
def fuseRankings (byWords : List WordMatch) (byMeaning : List MeaningMatch) (limit : Nat) :
    List (Ranked α) :=
  ((creditMeaning 0 byMeaning (creditWords 0 byWords [])).mergeSort Ranked.order).take limit

/-- How many candidates each ranking contributes: twice the limit, within 64 bits. -/
def candidateCount (limit : Nat) : Nat := min (2 * limit) IntegerRange.unsigned64.greatest.toNat

/-- The entities that a query finds by words and by meaning. When nothing is found by meaning, the
ranking by words stands as it is. -/
def Store.rank (s : Store) (embedder : Embedder) (query : String) (limit : Nat) :
    List (Ranked α) :=
  let byWords := s.rankWords query (candidateCount limit)
  match s.rankMeaning embedder query (candidateCount limit) with
  | [] =>
    (byWords.take limit).map fun m =>
      { entity := m.entity, score := RankArithmetic.ofNat m.score, fields := m.fields }
  | byMeaning => fuseRankings byWords byMeaning limit

end

end MemoryGraph
