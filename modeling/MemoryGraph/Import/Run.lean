-- SUMMARY: Carrying out an import node by node.
import MemoryGraph.Import.Decision
import MemoryGraph.Import.Mode
import MemoryGraph.Store.Rows
import MemoryGraph.Tree.Document

/-!
# Carrying out an import

The nodes are applied from the top of each tree downwards. A node that fails
leaves the store as it found it and is reported; its children follow all the
same, without a parent. A node that is to be created under a name that exists is
merged into the entity of that name.
-/
namespace MemoryGraph

open Text

/-- A node that failed. -/
structure NodeFailure where
  name : String
  path : NodePath
  cause : Refusal
  deriving DecidableEq, Repr

def NodeFailure.message (failure : NodeFailure) : String :=
  s!"{failure.name} ({failure.path.render}): {failure.cause.message}"

/-- What an import did. -/
structure ImportReport where
  created : Nat := 0
  merged : Nat := 0
  skipped : Nat := 0
  observations : Nat := 0
  relations : Nat := 0
  failures : List NodeFailure := []
  rolledBack : Bool := false
  /-- The entities that were created or merged into, in the order of their first node. -/
  touched : List Id := []
  deriving DecidableEq, Repr

namespace ImportReport

/-- Whether no node failed. -/
def success (report : ImportReport) : Bool := report.failures.isEmpty

def toJson (report : ImportReport) : Json :=
  .object [("success", .bool report.success), ("entities_created", .nat report.created),
    ("entities_merged", .nat report.merged), ("entities_skipped", .nat report.skipped),
    ("observations_created", .nat report.observations),
    ("relations_created", .nat report.relations),
    ("errors", Json.list (fun failure => .string failure.message) report.failures),
    ("rolled_back", .bool report.rolledBack), ("touched_ids", Json.list .int report.touched)]

end ImportReport

/-- What became of a node. -/
inductive NodeFate where
  | created
  | merged
  | skipped
  deriving DecidableEq, Repr

/-- What applying a node did. `resolved` is the entity that stands for the node from now on. -/
structure NodeEffect where
  fate : NodeFate
  resolved : Option Id
  observations : Nat := 0
  relations : Nat := 0
  deriving DecidableEq, Repr

namespace ImportReport

/-- Count what applying a node did. -/
def tally (report : ImportReport) (effect : NodeEffect) : ImportReport :=
  let report := { report with
    observations := report.observations + effect.observations
    relations := report.relations + effect.relations }
  let touched := match effect.resolved with
    | some id => if report.touched.contains id then report.touched else report.touched ++ [id]
    | none => report.touched
  match effect.fate with
  | .created => { report with created := report.created + 1, touched }
  | .merged => { report with merged := report.merged + 1, touched }
  | .skipped => { report with skipped := report.skipped + 1 }

end ImportReport

namespace Store

/-- Create the entity of a node with its observations. -/
def insertNode (now : Timestamp) (node : TreeNode) (s : Store) :
    Except Refusal (Entity × Nat × Store) := do
  let (entity, s) ← s.appendEntity now
    { name := node.name, entityType := node.entityType, aliases := node.aliases
      description := node.description }
  let (added, s) ← s.appendObservations now entity.id node.observations
  return (entity, added.length, s.refreshCount now entity.id)

/-- Add the aliases and the unseen observations of a node to an entity. -/
def absorbNode (now : Timestamp) (target : Entity) (node : TreeNode) (s : Store) :
    Except Refusal (Nat × Store) := do
  let aliases := aliasUnionText [target.aliases.getD "", node.aliases.getD ""]
  let s :=
    if aliases = target.aliases then s
    else s.modifyEntity target.id fun e => { e with aliases, updatedAt := now }
  let contents := unseen (s.contentsOf target.id) node.observations
  let (added, s) ← s.appendObservations now target.id contents
  return (added.length, s.refreshCount now target.id)

/-- The relation type that links a node to its parent. -/
def linkType (node : TreeNode) : String :=
  match node.relationType with
  | some relationType => if allBlank relationType then usualUpwardType else relationType
  | none => usualUpwardType

/-- Link the entity of a node to its parent, unless they are the same; the result counts the
relations that were added. -/
def linkToParent (now : Timestamp) (node : TreeNode) (id : Id) (parent : Option Id) (s : Store) :
    Except Refusal (Nat × Store) :=
  match parent with
  | none => .ok (0, s)
  | some parent =>
    if parent = id then .ok (0, s)
    else do
      let _ ← s.existing parent
      let (added, s) ← s.appendRelation now id parent (linkType node)
      return (if added.isSome then 1 else 0, s)

/-- Merge a node into an entity and link it to its parent. -/
def absorbUnder (now : Timestamp) (node : TreeNode) (target : Entity) (parent : Option Id)
    (s : Store) : Except Refusal (NodeEffect × Store) := do
  let (observations, s) ← s.absorbNode now target node
  let (relations, s) ← s.linkToParent now node target.id parent
  return ({ fate := .merged, resolved := some target.id, observations, relations }, s)

/-- Create the entity of a node and link it to its parent. -/
def insertUnder (now : Timestamp) (node : TreeNode) (parent : Option Id) (s : Store) :
    Except Refusal (NodeEffect × Store) := do
  let (entity, observations, s) ← s.insertNode now node
  let (relations, s) ← s.linkToParent now node entity.id parent
  return ({ fate := .created, resolved := some entity.id, observations, relations }, s)

/-- Apply a node by a decision; `treeParent` is the entity that stands for its parent. -/
def admitNode (now : Timestamp) (node : TreeNode) (decision : Decision) (treeParent : Option Id)
    (s : Store) : Except Refusal (NodeEffect × Store) := do
  let parent := decision.parent?.or treeParent
  match decision with
  | .skip (some id) _ =>
    let target ← s.existing id
    return ({ fate := .skipped, resolved := some target.id }, s)
  | .skip none _ =>
    let same := s.entityOf? (trim node.name) (trim node.entityType)
    return ({ fate := .skipped, resolved := same.map (·.id) }, s)
  | .create _ =>
    match s.entityNamed? (trim node.name) with
    | some existing => s.absorbUnder now node existing parent
    | none => s.insertUnder now node parent
  | .merge id _ | .addRelation id _ =>
    let target ← s.existing id
    s.absorbUnder now node target parent

end Store

/-- An import on its way: the store so far and the report so far. -/
structure ImportRun where
  store : Store
  report : ImportReport := {}
  deriving Repr

namespace ImportRun

/-- Apply one node; the second result is the entity that stands for it. -/
def visit (now : Timestamp) (decisions : Decisions) (node : TreeNode) (path : NodePath)
    (treeParent : Option Id) (run : ImportRun) : ImportRun × Option Id :=
  match run.store.admitNode now node (decisions.decisionFor path) treeParent with
  | .ok (effect, store) => ({ store, report := run.report.tally effect }, effect.resolved)
  | .error cause =>
    let failure : NodeFailure := { name := node.name, path, cause }
    ({ run with report := { run.report with failures := run.report.failures ++ [failure] } }, none)

mutual
/-- Apply a node and everything below it. -/
def descend (now : Timestamp) (decisions : Decisions) (path : NodePath) (treeParent : Option Id)
    (run : ImportRun) : TreeNode → ImportRun
  | ⟨name, entityType, aliases, description, observations, relationType, children⟩ =>
    let node : TreeNode :=
      ⟨name, entityType, aliases, description, observations, relationType, children⟩
    let (run, resolved) := run.visit now decisions node path treeParent
    run.descendAll now decisions path resolved 0 children
termination_by structural node => node
/-- Apply the children of a node from an index on, and everything below them. -/
def descendAll (now : Timestamp) (decisions : Decisions) (path : NodePath)
    (treeParent : Option Id) (index : Nat) (run : ImportRun) : List TreeNode → ImportRun
  | [] => run
  | node :: rest =>
    let run := run.descend now decisions (path.child index) treeParent node
    run.descendAll now decisions path treeParent (index + 1) rest
termination_by structural nodes => nodes
end

/-- Apply the trees of a document from an index on. -/
def descendRoots (now : Timestamp) (decisions : Decisions) (index : Nat) (run : ImportRun) :
    List TreeNode → ImportRun
  | [] => run
  | node :: rest =>
    let run := run.descend now decisions { root := index } none node
    run.descendRoots now decisions (index + 1) rest

end ImportRun

/-- Carry out an import. An atomic one with a failure leaves the store as it was. -/
def Store.runImport (now : Timestamp) (document : TreeDocument) (decisions : Decisions)
    (mode : ImportMode) (s : Store) : ImportReport × Store :=
  let run := ImportRun.descendRoots now decisions 0 { store := s } document.roots
  if mode = .atomic ∧ run.report.success = false then
    ({ failures := run.report.failures, rolledBack := true }, s)
  else (run.report, run.store)

end MemoryGraph
