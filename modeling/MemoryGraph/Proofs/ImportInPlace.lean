-- SUMMARY: An import as statements on a connection with savepoints, and that it comes to the import on stores.
import MemoryGraph.Proofs.Statements
import MemoryGraph.Proofs.Visit

/-!
# Imports in place

An import is one transaction on a connection to the database. The statements of a
node write at once, and a node can fail after some of them: its entity is there
already when an observation turns out blank, and so are its observations when its
parent is missing. There is a savepoint before each node, and the walk goes back
to it when the node fails. In this way a node that fails leaves the connection as
it found it, and the whole comes to an import that writes nothing for such nodes.
-/
namespace MemoryGraph

open Text

/-! ## Nodes -/

namespace InPlace

open Store

variable {s : Store} {now : Timestamp} {node : TreeNode} {decision : Decision}
  {parent treeParent : Option Id} {target : Entity}

/-- What a node says of its entity. -/
def draftOf (node : TreeNode) : EntityDraft where
  name := node.name
  entityType := node.entityType
  aliases := node.aliases
  description := node.description

/-- Create the entity of a node with its observations; the second result counts these. -/
def createFrom (now : Timestamp) (node : TreeNode) : InPlace (Entity × Nat) := do
  let entity ← insertEntity now (draftOf node)
  let added ← insertObservations now entity.id node.observations
  write fun s => s.refreshCount now entity.id
  return (entity, added.length)

/-- Give an entity other aliases than it has. -/
def updateAliases (now : Timestamp) (target : Entity) (aliases : Option String) : InPlace Unit :=
  if aliases = target.aliases then pure ()
  else do
    let _ ← updateEntityRow target.id fun e => { e with aliases, updatedAt := now }

/-- Add the aliases and the unseen observations of a node to an entity. -/
def mergeInto (now : Timestamp) (target : Entity) (node : TreeNode) : InPlace Nat := do
  updateAliases now target (aliasUnionText [target.aliases.getD "", node.aliases.getD ""])
  let known ← ask fun s => s.contentsOf target.id
  let added ← insertNew now target.id known node.observations
  write fun s => s.refreshCount now target.id
  return added.length

/-- Link the entity of a node to its parent, unless they are the same; the result counts the
relations that were added. -/
def linkToParent (now : Timestamp) (node : TreeNode) (id : Id) : Option Id → InPlace Nat
  | none => pure 0
  | some parent =>
    if parent = id then pure 0
    else do
      let _ ← require fun s => s.existing parent
      let added ← statement (appendRelation now id parent (linkType node))
      return if added.isSome then 1 else 0

def mergeUnder (now : Timestamp) (node : TreeNode) (target : Entity) (parent : Option Id) :
    InPlace NodeEffect := do
  let observations ← mergeInto now target node
  let relations ← linkToParent now node target.id parent
  return { fate := .merged, resolved := some target.id, observations, relations }

def createUnder (now : Timestamp) (node : TreeNode) (parent : Option Id) :
    InPlace NodeEffect := do
  let (entity, observations) ← createFrom now node
  let relations ← linkToParent now node entity.id parent
  return { fate := .created, resolved := some entity.id, observations, relations }

/-- Apply a node by a decision; `treeParent` is the entity that stands for its parent. -/
def applyNode (now : Timestamp) (node : TreeNode) (decision : Decision) (treeParent : Option Id) :
    InPlace NodeEffect :=
  let parent := decision.parent?.or treeParent
  match decision with
  | .skip (some id) _ => do
    let target ← require fun s => s.existing id
    return { fate := .skipped, resolved := some target.id }
  | .skip none _ => do
    let same ← ask fun s => s.entityOf? (trim node.name) (trim node.entityType)
    return { fate := .skipped, resolved := same.map (·.id) }
  | .create _ => do
    match ← ask fun s => s.entityNamed? (trim node.name) with
    | some existing => mergeUnder now node existing parent
    | none => createUnder now node parent
  | .merge id _ | .addRelation id _ => do
    let target ← require fun s => s.existing id
    mergeUnder now node target parent

theorem createFrom_performs (hs : s.Keyed) (hfree : s.entityNamed? (trim node.name) = none) :
    Performs (createFrom now node) s
      (s.insertNode now node >>= fun row => pure ((row.1, row.2.1), row.2.2)) := by
  have hrow : Performs (insertEntity now (draftOf node)) s (s.appendEntity now (draftOf node)) :=
    insertEntity_performs hs hfree
  simp only [insertNode, bind_assoc, pure_bind]
  refine hrow.bind fun entity first _ => ?_
  refine (insertObservations_performs _).bind fun added second _ => ?_
  exact Performs.done rfl (performs_pure _)

theorem updateAliases_performs {aliases : Option String} :
    Performs (updateAliases now target aliases) s
      (.ok ((), if aliases = target.aliases then s
        else s.modifyEntity target.id fun e => { e with aliases, updatedAt := now })) := by
  unfold updateAliases
  split
  · exact performs_pure ()
  · exact Performs.done rfl (performs_pure ())

theorem mergeInto_performs :
    Performs (mergeInto now target node) s (s.absorbNode now target node) := by
  refine updateAliases_performs.bind (f := fun _ => _) fun _ mid hmid => ?_
  -- New aliases leave the contents that are known as they were.
  have hcontents : mid.contentsOf target.id = s.contentsOf target.id := by
    cases hmid
    split <;> rfl
  cases hmid
  refine Performs.of_ask ?_
  rw [hcontents]
  refine (insertNew_performs _ _).bind fun added last _ => ?_
  exact Performs.done rfl (performs_pure _)

theorem linkToParent_performs {id : Id} :
    Performs (linkToParent now node id parent) s (s.linkToParent now node id parent) := by
  cases parent with
  | none => exact performs_pure 0
  | some parent =>
    unfold linkToParent Store.linkToParent
    dsimp only
    split
    · exact performs_pure 0
    · refine Performs.of_require fun _ _ => ?_
      exact Performs.of_statement fun added after _ => performs_pure _

theorem mergeUnder_performs :
    Performs (mergeUnder now node target parent) s (s.absorbUnder now node target parent) := by
  refine mergeInto_performs.bind fun observations mid _ => ?_
  exact linkToParent_performs.bind fun relations after _ => performs_pure _

theorem createUnder_performs (hs : s.Keyed) (hfree : s.entityNamed? (trim node.name) = none) :
    Performs (createUnder now node parent) s (s.insertUnder now node parent) := by
  have hsplit : s.insertUnder now node parent =
      (s.insertNode now node >>= fun row => pure ((row.1, row.2.1), row.2.2)) >>= fun row =>
        row.2.linkToParent now node row.1.1.id parent >>= fun linked =>
          pure ({ fate := .created, resolved := some row.1.1.id, observations := row.1.2,
                  relations := linked.1 }, linked.2) := by
    simp only [insertUnder, bind_assoc, pure_bind]
  rw [hsplit]
  refine (createFrom_performs hs hfree).bind fun row mid _ => ?_
  exact linkToParent_performs.bind fun relations after _ => performs_pure _

theorem applyNode_performs (hs : s.Keyed) :
    Performs (applyNode now node decision treeParent) s
      (s.admitNode now node decision treeParent) := by
  cases decision with
  | skip given parent =>
    cases given with
    | none => exact Performs.of_ask (performs_pure _)
    | some id => exact Performs.of_require fun target _ => performs_pure _
  | create parent =>
    refine Performs.of_ask ?_
    unfold admitNode
    cases hnamed : s.entityNamed? (trim node.name) with
    | none => exact createUnder_performs hs hnamed
    | some existing => exact mergeUnder_performs
  | merge id parent => exact Performs.of_require fun target _ => mergeUnder_performs
  | addRelation id parent => exact Performs.of_require fun target _ => mergeUnder_performs

end InPlace

/-! ## Connections -/

/-- A connection to the database. -/
structure Connection where
  /-- The store as the statements so far have left it. -/
  store : Store
  /-- The stores to go back to, the one of the last savepoint first and the one that the transaction
  began with last. -/
  marks : List Store := []
  deriving DecidableEq, Repr

/-- A computation on a connection. -/
abbrev Session (α : Type) := StateM Connection α

namespace Session

variable {α β : Type} {s : Store} {c : Connection}

/-- What a session gives, and the connection that it leaves. -/
def runOn (p : Session α) (c : Connection) : α × Connection := (p.run c).run

def savepoint : Session Unit := modify fun c => { c with marks := c.store :: c.marks }

/-- Go back to the last savepoint, which stays set. -/
def rollbackToSavepoint : Session Unit := modify fun c => { c with store := c.marks.headD c.store }

/-- Give up the last savepoint and keep what was written since. -/
def release : Session Unit := modify fun c => { c with marks := c.marks.tail }

/-- A transaction begins with a savepoint. -/
def beginTransaction : Session Unit := savepoint

/-- End the transaction and keep what it has written. -/
def commit : Session Unit := modify fun c => { c with marks := [] }

/-- End the transaction and go back to its beginning. -/
def rollback : Session Unit := modify fun c => { store := c.marks.getLastD c.store }

/-- Carry out statements. What they have written stays when they are refused. -/
def carryOut (p : InPlace α) : Session (Except Refusal α) := fun c =>
  let (result, after) := p.runOn c.store
  (result, { c with store := after })

/-- Carry out a session on a connection of its own. A transaction that is still open at the end is
rolled back. -/
def alone (p : Session α) : InPlace α := fun s =>
  let (a, c) := (do let a ← p; rollback; return a : Session α).runOn { store := s }
  (.ok a, c.store)

@[simp] theorem runOn_pure (a : α) : (pure a : Session α).runOn c = (a, c) := rfl

@[simp] theorem runOn_bind (p : Session α) (k : α → Session β) :
    (p >>= k).runOn c = (k (p.runOn c).1).runOn (p.runOn c).2 := rfl

@[simp] theorem runOn_map (f : α → β) (p : Session α) :
    (f <$> p).runOn c = (f (p.runOn c).1, (p.runOn c).2) := rfl

@[simp] theorem runOn_savepoint :
    savepoint.runOn c = ((), { c with marks := c.store :: c.marks }) := rfl

@[simp] theorem runOn_rollbackToSavepoint :
    rollbackToSavepoint.runOn c = ((), { c with store := c.marks.headD c.store }) := rfl

@[simp] theorem runOn_release : release.runOn c = ((), { c with marks := c.marks.tail }) := rfl

@[simp] theorem runOn_beginTransaction :
    beginTransaction.runOn c = ((), { c with marks := c.store :: c.marks }) := rfl

@[simp] theorem runOn_commit : commit.runOn c = ((), { c with marks := [] }) := rfl

@[simp] theorem runOn_rollback :
    rollback.runOn c = ((), { store := c.marks.getLastD c.store }) := rfl

@[simp] theorem runOn_carryOut (p : InPlace α) :
    (carryOut p).runOn c = ((p.runOn c.store).1, { c with store := (p.runOn c.store).2 }) := rfl

/-- A session that has ended its transaction leaves its store. -/
theorem alone_runOn {p : Session α} {a : α} {after : Store}
    (h : p.runOn { store := s } = (a, { store := after })) :
    (alone p).runOn s = (.ok a, after) := by
  have hrun : (alone p).runOn s =
      (.ok (p.runOn { store := s }).1, (rollback.runOn (p.runOn { store := s }).2).2.store) := rfl
  rw [hrun, h]
  rfl

/-! ## Imports -/

/-- Apply one node inside a savepoint; the second result is the entity that stands for it. -/
def visit (now : Timestamp) (decisions : Decisions) (node : TreeNode) (path : NodePath)
    (treeParent : Option Id) (report : ImportReport) : Session (ImportReport × Option Id) := do
  savepoint
  match ← carryOut (InPlace.applyNode now node (decisions.decisionFor path) treeParent) with
  | .ok effect =>
    release
    return (report.tally effect, effect.resolved)
  | .error cause =>
    rollbackToSavepoint
    release
    let failure : NodeFailure := { name := node.name, path, cause }
    return ({ report with failures := report.failures ++ [failure] }, none)

mutual
/-- Apply a node and everything below it. -/
def walk (now : Timestamp) (decisions : Decisions) (path : NodePath) (treeParent : Option Id)
    (report : ImportReport) : TreeNode → Session ImportReport
  | ⟨name, entityType, aliases, description, observations, relationType, children⟩ => do
    let node : TreeNode :=
      ⟨name, entityType, aliases, description, observations, relationType, children⟩
    let (report, resolved) ← visit now decisions node path treeParent report
    walkAll now decisions path resolved 0 report children
termination_by structural node => node
/-- Apply the children of a node from an index on, and everything below them. -/
def walkAll (now : Timestamp) (decisions : Decisions) (path : NodePath) (treeParent : Option Id)
    (index : Nat) (report : ImportReport) : List TreeNode → Session ImportReport
  | [] => return report
  | node :: rest => do
    let report ← walk now decisions (path.child index) treeParent report node
    walkAll now decisions path treeParent (index + 1) report rest
termination_by structural nodes => nodes
end

/-- Apply the trees of a document from an index on. -/
def walkRoots (now : Timestamp) (decisions : Decisions) (index : Nat) (report : ImportReport) :
    List TreeNode → Session ImportReport
  | [] => return report
  | node :: rest => do
    let report ← walk now decisions { root := index } none report node
    walkRoots now decisions (index + 1) report rest

/-- Carry out an import in one transaction. An atomic one with a failure is rolled back. -/
def runImport (now : Timestamp) (document : TreeDocument) (decisions : Decisions)
    (mode : ImportMode) : Session ImportReport := do
  beginTransaction
  let report ← walkRoots now decisions 0 {} document.roots
  if mode = .atomic ∧ report.success = false then
    rollback
    return { failures := report.failures, rolledBack := true }
  else
    commit
    return report

section Import

variable {now : Moment} {decisions : Decisions}

/-- A visit in place leaves what the visit leaves, under the savepoints that it found. -/
theorem visit_runOn (v : Visit now.text decisions) (report : ImportReport) (marks : List Store)
    (hv : v.before.Keyed) :
    (visit now.text decisions v.node v.path v.treeParent report).runOn ⟨v.before, marks⟩ =
      ((report.record v, v.resolved), ⟨v.after, marks⟩) := by
  have hnode : InPlace.Performs
      (InPlace.applyNode now.text v.node (decisions.decisionFor v.path) v.treeParent) v.before
      v.outcome := InPlace.applyNode_performs hv
  unfold ImportReport.record Visit.resolved Visit.effect? Visit.after
  cases houtcome : v.outcome with
  | error cause =>
    rw [houtcome] at hnode
    obtain ⟨left, hleft⟩ := hnode.exists_left
    simp [visit, hleft]
  | ok result =>
    rw [houtcome] at hnode
    have hleft : InPlace.runOn _ v.before = (.ok result.1, result.2) := hnode
    simp [visit, hleft]

mutual
theorem walk_runOn (path : NodePath) (treeParent : Option Id) (report : ImportReport) (s : Store)
    (marks : List Store) (hs : s.Keyed) :
    (node : TreeNode) →
      (walk now.text decisions path treeParent report node).runOn ⟨s, marks⟩ =
        let visits := Visit.ofTree now.text decisions path treeParent s node
        (visits.foldl ImportReport.record report, ⟨Visit.storeAfter s visits, marks⟩)
  | ⟨name, entityType, aliases, description, observations, relationType, children⟩ => by
    let v : Visit now.text decisions :=
      { node := ⟨name, entityType, aliases, description, observations, relationType, children⟩
        path, treeParent, before := s }
    rw [walk, runOn_bind, visit_runOn v report marks hs]
    exact walkAll_runOn path v.resolved 0 (report.record v) v.after marks (v.keyed_after hs)
      children
theorem walkAll_runOn (path : NodePath) (treeParent : Option Id) (index : Nat)
    (report : ImportReport) (s : Store) (marks : List Store) (hs : s.Keyed) :
    (nodes : List TreeNode) →
      (walkAll now.text decisions path treeParent index report nodes).runOn ⟨s, marks⟩ =
        let visits := Visit.ofTrees now.text decisions path treeParent index s nodes
        (visits.foldl ImportReport.record report, ⟨Visit.storeAfter s visits, marks⟩)
  | [] => by
    rw [walkAll, Visit.ofTrees]
    rfl
  | node :: rest => by
    rw [walkAll, Visit.ofTrees, runOn_bind, walk_runOn _ _ _ _ _ hs node]
    dsimp only
    rw [walkAll_runOn]
    · simp
    · exact (Visit.chained_ofTree _ _ _ _).keyed hs
end

theorem walkRoots_runOn (index : Nat) (report : ImportReport) (s : Store) (marks : List Store)
    (hs : s.Keyed) (nodes : List TreeNode) :
    (walkRoots now.text decisions index report nodes).runOn ⟨s, marks⟩ =
      let visits := Visit.ofRoots now.text decisions index s nodes
      (visits.foldl ImportReport.record report, ⟨Visit.storeAfter s visits, marks⟩) := by
  induction nodes generalizing index report s with
  | nil => rfl
  | cons node rest ih =>
    rw [walkRoots, Visit.ofRoots, runOn_bind, walk_runOn _ _ _ _ _ hs node]
    dsimp only
    rw [ih]
    · simp
    · exact (Visit.chained_ofTree _ _ _ _).keyed hs

/-- Carried out in place, an import gives its report and leaves its store, with no transaction
open. -/
theorem runImport_runOn (hs : s.Keyed) (document : TreeDocument) (mode : ImportMode) :
    (runImport now.text document decisions mode).runOn { store := s } =
      ((s.runImport now.text document decisions mode).1,
        { store := (s.runImport now.text document decisions mode).2 }) := by
  unfold runImport Store.runImport
  rw [ImportRun.descendRoots_eq, runOn_bind, runOn_beginTransaction, runOn_bind,
    walkRoots_runOn 0 {} s [s] hs]
  dsimp only [ImportRun.replay]
  split
  · rw [runOn_bind, runOn_rollback]
    rfl
  · rw [runOn_bind, runOn_commit]
    rfl

end Import
end Session
end MemoryGraph
