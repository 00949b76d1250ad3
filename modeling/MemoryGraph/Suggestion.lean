-- SUMMARY: Entities without a place in a tree, and the projects they may belong to.
import MemoryGraph.Json.Basic
import MemoryGraph.Number.Sum
import MemoryGraph.Store.Basic

/-!
# Orphans

An orphan is an entity without a parent that is no project itself. Projects are
suggested as its parent by the tokens of its name: a token scores 10 as a token
of the project's name, else 5 inside that name, else 8 as a token of one of its
aliases, else 3 inside them.
-/
namespace MemoryGraph

open Text

/-- The characters between tokens of a name. -/
def isTokenDelimiter (c : Char) : Bool := isBlank c || c = '_' || c = '-' || c = '.'

/-- The tokens of a name: lowercase, of two characters at least, without repetition. -/
def nameTokens (name : String) : List String :=
  distinct ((((pieces isTokenDelimiter name.toList).map String.ofList).map lower).filter
    (fun token => 2 ≤ token.length))

/-- The tokens of the aliases in a text. -/
def tokensOfAliases (aliases : String) : List String :=
  distinct ((aliasesOf aliases).flatMap nameTokens)

/-- A project that overlaps with the name of an entity. -/
structure ParentSuggestion where
  projectId : Id
  projectName : String
  score : Nat
  tokens : List String
  deriving DecidableEq, Repr

/-- The points of a token in a project. -/
def tokenPoints (project : Entity) (token : String) : Nat :=
  let name := lower project.name
  let aliases := lower (project.aliases.getD "")
  if (nameTokens project.name).contains token then 10
  else if contains name token then 5
  else if (tokensOfAliases aliases).contains token then 8
  else if !aliases.isEmpty && contains aliases token then 3
  else 0

/-- How well a project overlaps with an entity, when it does at all. -/
def suggestion? (node project : Entity) : Option ParentSuggestion :=
  let matched := (nameTokens node.name).filter (fun token => 0 < tokenPoints project token)
  let score := sumOf (tokenPoints project) matched
  if 0 < score then
    some { projectId := project.id, projectName := project.name, score, tokens := matched }
  else none

/-- An orphan with the projects suggested as its parent. -/
structure OrphanAdvice where
  entity : Entity
  childCount : Nat
  suggestions : List ParentSuggestion
  deriving DecidableEq, Repr

/-- How many projects are suggested at most. -/
def suggestionsShown : Nat := 3

namespace Store

/-- The entities without a parent that are no projects. -/
def orphans (s : Store) : List Entity := s.parentless.filter (fun e => !e.isTop)

/-- The other projects that overlap with an entity, the best first. -/
def suggestionsFor (s : Store) (node : Entity) : List ParentSuggestion :=
  let others := (s.ofType topType).filter (fun project => project.id ≠ node.id)
  (others.filterMap (suggestion? node)).mergeSort (fun a b => b.score ≤ a.score)

/-- All orphans with their best suggestions. -/
def orphanAdvice (s : Store) : List OrphanAdvice :=
  s.orphans.map fun e =>
    { entity := e
      childCount := (s.relationsFromChildren e.id).length
      suggestions := (s.suggestionsFor e).take suggestionsShown }

end Store

def ParentSuggestion.toJson (m : ParentSuggestion) : Json :=
  .object [("project_id", .int m.projectId), ("project_name", .string m.projectName),
    ("score", .nat m.score), ("matched_tokens", Json.list .string m.tokens)]

def OrphanAdvice.toJson (advice : OrphanAdvice) : Json :=
  .object [("id", .int advice.entity.id), ("name", .string advice.entity.name),
    ("entity_type", .string advice.entity.entityType),
    ("observation_count", .nat advice.entity.observationCount),
    ("child_count", .nat advice.childCount),
    ("suggested_parents", Json.list ParentSuggestion.toJson advice.suggestions)]

end MemoryGraph
