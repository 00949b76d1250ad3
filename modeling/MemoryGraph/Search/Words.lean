-- SUMMARY: Ranking entities by the words of a query.
import MemoryGraph.Number.Sum
import MemoryGraph.Search.Field
import MemoryGraph.Store.Basic

/-!
# Searching for words

A query is split into lowercase words. Each of them scores in every field of an
entity whose lowercase text holds it: 15 points in the type, 10 in the name and
5 in the aliases, and half as much again when it is a whole word there. Every
matching word after the first adds 2 points. Points are counted in halves, and
the half that may be left over is dropped at the end.
-/
namespace MemoryGraph

open Text

/-- The words of a query, lowercase and without repetition. -/
def queryWords (query : String) : List String := distinct ((words query).map lower)

/-- Twice the points of a word that stands in a field. -/
def SearchField.weight : SearchField → Nat
  | .entityType => 30
  | .name => 20
  | .aliases => 10
  | .semantic => 0

/-- The lowercase words of a field. -/
def wordsIn (text : String) : List String :=
  (fieldsAt (fun c => isBlank c || isAliasDelimiter c) text).map lower

/-- Whether a word stands in a field of an entity. -/
def Entity.matchesIn (e : Entity) (word : String) (field : SearchField) : Bool :=
  let text := lower (field.text e)
  !text.isEmpty && contains text word

/-- Whether a word stands in one of the fields of an entity. -/
def Entity.matchesWord (e : Entity) (word : String) : Bool :=
  SearchField.searched.any (e.matchesIn word)

/-- Twice the points of a word in a field of an entity. -/
def Entity.halfPointsIn (e : Entity) (word : String) (field : SearchField) : Nat :=
  if e.matchesIn word field then
    field.weight + (if (wordsIn (field.text e)).contains word then field.weight / 2 else 0)
  else 0

/-- Twice the points of a word in an entity. -/
def Entity.halfPoints (e : Entity) (word : String) : Nat :=
  sumOf (e.halfPointsIn word) SearchField.searched

/-- Twice the score of an entity before anything is dropped. -/
def Entity.halfScore (e : Entity) (tokens : List String) : Nat :=
  sumOf e.halfPoints tokens + 4 * ((tokens.filter e.matchesWord).length - 1)

/-- The fields of an entity in which one of the words stands. -/
def Entity.matchedFields (e : Entity) (tokens : List String) : List SearchField :=
  SearchField.searched.filter (fun field => tokens.any (fun word => e.matchesIn word field))

/-- The score of an entity with the fields that matched, when it is at least one point. -/
def Entity.score? (e : Entity) (tokens : List String) : Option (Nat × List SearchField) :=
  let score := e.halfScore tokens / 2
  if score < 1 then none else some (score, e.matchedFields tokens)

/-- An entity that was found with its score. -/
structure WordMatch where
  entity : Entity
  score : Nat
  fields : List SearchField
  deriving DecidableEq, Repr

/-- The order of a result: by type, and of one type by falling score. -/
def WordMatch.order (a b : WordMatch) : Bool :=
  a.entity.entityType < b.entity.entityType
    || (a.entity.entityType = b.entity.entityType && b.score ≤ a.score)

namespace Store

/-- The entities with one of the words in their name, type or aliases. -/
def candidatesFor (s : Store) (tokens : List String) : List Entity :=
  s.entities.filter fun e =>
    let texts := [lower e.name, lower e.entityType, lower (e.aliases.getD "")]
    tokens.any (fun word => texts.any (fun text => contains text word))

/-- The entities that the words of a query find, at most `limit`. -/
def rankWords (s : Store) (query : String) (limit : Nat) : List WordMatch :=
  let tokens := queryWords query
  if tokens.isEmpty ∨ limit = 0 then []
  else
    let found := (s.candidatesFor tokens).filterMap fun e =>
      (e.score? tokens).map fun (score, fields) => { entity := e, score, fields : WordMatch }
    (found.mergeSort WordMatch.order).take limit

end Store
end MemoryGraph
