-- SUMMARY: Comparing the nodes of an import with the graph without changing it.
import MemoryGraph.Search.Words
import MemoryGraph.Tree.Document
import MemoryGraph.Tree.Path

/-!
# Comparing an import

A root is looked up by the words of its name and type and graded by the best
entity found: a high grade selects that entity. A child is looked up by its
exact name and type; what is to become of it depends on whether the entity found
is already under one with the name of the parent in the tree.
-/
namespace MemoryGraph

open Text

/-- How surely a node stands for an entity of the graph. -/
inductive Confidence where
  | high
  | low
  | new
  deriving DecidableEq, Repr

def Confidence.label : Confidence → String
  | .high => "high"
  | .low => "low"
  | .new => "new"

/-- What is to become of a child. -/
inductive ChildPlan where
  | create
  | addRelation
  | skip
  deriving DecidableEq, Repr

def ChildPlan.label : ChildPlan → String
  | .create => "create"
  | .addRelation => "add_relation"
  | .skip => "skip"

/-- The comparison of one node with the graph. -/
structure NodeComparison where
  path : NodePath
  name : String
  entityType : String
  /-- The name of the parent in the tree; roots have none. -/
  parentName : Option String
  confidence : Confidence
  candidates : List WordMatch
  exactMatch : Option Entity
  selected : Option Id
  childPlan : Option ChildPlan
  willAddObservations : Bool
  deriving DecidableEq, Repr

/-- How many nodes there are of each confidence and plan. -/
structure ComparisonCounts where
  total : Nat
  high : Nat
  low : Nat
  new : Nat
  create : Nat
  addRelation : Nat
  skip : Nat
  deriving DecidableEq, Repr

/-- The comparison of a document with the graph. -/
structure Comparison where
  results : List NodeComparison
  deriving DecidableEq, Repr

namespace Comparison

def countConfidence (comparison : Comparison) (confidence : Confidence) : Nat :=
  (comparison.results.filter (fun r => r.confidence = confidence)).length

def countPlan (comparison : Comparison) (plan : ChildPlan) : Nat :=
  (comparison.results.filter (fun r => r.childPlan = some plan)).length

def summary (comparison : Comparison) : ComparisonCounts where
  total := comparison.results.length
  high := comparison.countConfidence .high
  low := comparison.countConfidence .low
  new := comparison.countConfidence .new
  create := comparison.countPlan .create
  addRelation := comparison.countPlan .addRelation
  skip := comparison.countPlan .skip

end Comparison

/-- How many candidates a root is compared with. -/
def candidateLimit : Nat := 10

/-- The first of the matches with the highest score. -/
def bestMatch? : List WordMatch → Option WordMatch
  | [] => none
  | m :: rest =>
    match bestMatch? rest with
    | none => some m
    | some other => if m.score < other.score then some other else some m

/-- The grade of the best match of a root. -/
def WordMatch.grade (m : WordMatch) (wantedType : String) : Confidence :=
  if 20 ≤ m.score ∧ (m.fields.contains .name ∨ m.fields.contains .aliases)
      ∧ m.fields.contains .entityType ∧ lower m.entity.entityType = lower wantedType then .high
  else if 10 ≤ m.score ∧ m.fields.contains .entityType then .low
  else .new

namespace Store

/-- Whether a node says something that an entity does not say yet. -/
def saysMore (s : Store) (id : Id) (node : TreeNode) : Bool :=
  node.observations.any fun draft => !(s.contentsOf id).contains draft.content

/-- Whether an entity is under one with a name, capitals and blanks at the ends apart. -/
def isUnder (s : Store) (id : Id) (parentName : String) : Bool :=
  (s.relationsToParents id).any fun r =>
    (s.entity? r.target).any fun parent => lower parent.name = lower (trim parentName)

/-- Compare a root with the graph. -/
def compareRoot (s : Store) (node : TreeNode) (path : NodePath) : NodeComparison :=
  let ranked := s.rankWords (node.name ++ " " ++ node.entityType) candidateLimit
  let best := bestMatch? ranked
  let confidence := match best with
    | some m => m.grade node.entityType
    | none => .new
  let selected := if confidence = .high then best.map (·.entity) else none
  { path
    name := node.name
    entityType := node.entityType
    parentName := none
    confidence
    candidates := ranked
    exactMatch := none
    selected := selected.map (·.id)
    childPlan := none
    willAddObservations := match selected with
      | some e => s.saysMore e.id node
      | none => !node.observations.isEmpty }

/-- Compare a child with the graph. -/
def compareChild (s : Store) (node : TreeNode) (path : NodePath) (parentName : String) :
    NodeComparison :=
  let existing := s.entityOf? (trim node.name) (trim node.entityType)
  { path
    name := node.name
    entityType := node.entityType
    parentName := some parentName
    confidence := if existing.isSome then .high else .new
    candidates := []
    exactMatch := existing
    selected := existing.map (·.id)
    childPlan := match existing with
      | some e => some (if s.isUnder e.id parentName then .skip else .addRelation)
      | none => some .create
    willAddObservations := match existing with
      | some e => s.saysMore e.id node
      | none => !node.observations.isEmpty }

mutual
/-- Compare a child and everything below it with the graph. -/
def compareSubtree (s : Store) (path : NodePath) (parentName : String) :
    TreeNode → List NodeComparison
  | ⟨name, entityType, aliases, description, observations, relationType, children⟩ =>
    s.compareChild ⟨name, entityType, aliases, description, observations, relationType, children⟩
        path parentName
      :: s.compareSubtrees path name 0 children
termination_by structural node => node
/-- Compare the children of a node from an index on, and everything below them, with the graph. -/
def compareSubtrees (s : Store) (path : NodePath) (parentName : String) (index : Nat) :
    List TreeNode → List NodeComparison
  | [] => []
  | node :: rest =>
    s.compareSubtree (path.child index) parentName node
      ++ s.compareSubtrees path parentName (index + 1) rest
termination_by structural nodes => nodes
end

/-- Compare the trees of a document from an index on with the graph. -/
def compareTrees (s : Store) (index : Nat) : List TreeNode → List NodeComparison
  | [] => []
  | node :: rest =>
    (s.compareRoot node { root := index }
      :: s.compareSubtrees { root := index } node.name 0 node.children)
      ++ s.compareTrees (index + 1) rest

/-- Compare a document with the graph. -/
def compareDocument (s : Store) (document : TreeDocument) : Comparison :=
  ⟨s.compareTrees 0 document.roots⟩

end Store

/-! ## As JSON -/

/-- A candidate for a root. -/
def WordMatch.toCandidateJson (m : WordMatch) : Json :=
  .object [("id", .int m.entity.id), ("name", .string m.entity.name),
    ("entity_type", .string m.entity.entityType), ("score", .nat m.score),
    ("matched_fields", Json.list SearchField.toJson m.fields)]

/-- An entity that a child stands for. -/
def Entity.toExactMatchJson (e : Entity) : Json :=
  .object [("id", .int e.id), ("name", .string e.name), ("entity_type", .string e.entityType),
    ("observation_count", .nat e.observationCount)]

def NodeComparison.toJson (r : NodeComparison) : Json :=
  .object (
    [("node_path", .string r.path.render), ("name", .string r.name),
      ("entity_type", .string r.entityType), ("is_child", .bool r.parentName.isSome)]
      ++ Json.optionalField "parent_name" .string r.parentName
      ++ [("status", .string r.confidence.label)]
      ++ (if r.candidates.isEmpty then []
        else [("matches", Json.list WordMatch.toCandidateJson r.candidates)])
      ++ Json.optionalField "exact_match" Entity.toExactMatchJson r.exactMatch
      ++ [("selected_match_id", Json.orNull .int r.selected)]
      ++ Json.optionalField "child_action" (fun plan => .string plan.label) r.childPlan
      ++ [("will_add_observations", .bool r.willAddObservations)])

def ComparisonCounts.toJson (summary : ComparisonCounts) : Json :=
  .object [("total", .nat summary.total), ("high", .nat summary.high), ("low", .nat summary.low),
    ("new", .nat summary.new), ("create", .nat summary.create),
    ("add_relation", .nat summary.addRelation), ("skip", .nat summary.skip)]

def Comparison.toJson (comparison : Comparison) : Json :=
  .object [("results", Json.list NodeComparison.toJson comparison.results),
    ("summary", comparison.summary.toJson)]

end MemoryGraph
