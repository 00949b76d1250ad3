-- SUMMARY: The visits of an import, one for each node, and how the store and the report come out of them.
import MemoryGraph.Proofs.Admission

/-!
# The visits of an import

An import visits every node of a document once, a parent before its children and
siblings in their order. A visit finds the store that the visit before it left,
and the entity that stands for the parent of its node. The list of all visits
tells everything about an import: the last one leaves the final store, and the
report counts what the visits did.
-/
namespace MemoryGraph

open Text

/-! ## Places in a document -/

mutual
/-- The nodes of a tree with their paths, each before the nodes below it. -/
def TreeNode.places (path : NodePath) : TreeNode → List (NodePath × TreeNode)
  | ⟨name, entityType, aliases, description, observations, relationType, children⟩ =>
    (path, ⟨name, entityType, aliases, description, observations, relationType, children⟩)
      :: TreeNode.placesBelow path 0 children
termination_by structural node => node
/-- The nodes of the trees below a node, from an index on. -/
def TreeNode.placesBelow (path : NodePath) (index : Nat) :
    List TreeNode → List (NodePath × TreeNode)
  | [] => []
  | node :: rest => node.places (path.child index) ++ TreeNode.placesBelow path (index + 1) rest
termination_by structural nodes => nodes
end

/-- The nodes of the trees of a document, from an index on. -/
def TreeDocument.placesFrom (index : Nat) : List TreeNode → List (NodePath × TreeNode)
  | [] => []
  | node :: rest => node.places { root := index } ++ TreeDocument.placesFrom (index + 1) rest

/-- The nodes of a document with their paths, in the order in which they are visited. -/
def TreeDocument.places (document : TreeDocument) : List (NodePath × TreeNode) :=
  TreeDocument.placesFrom 0 document.roots

mutual
theorem TreeNode.length_places (path : NodePath) :
    (node : TreeNode) → (node.places path).length = node.count
  | ⟨name, entityType, aliases, description, observations, relationType, children⟩ => by
    rw [TreeNode.places, TreeNode.count, List.length_cons, TreeNode.length_placesBelow,
      Nat.add_comm]
theorem TreeNode.length_placesBelow (path : NodePath) (index : Nat) :
    (nodes : List TreeNode) →
      (TreeNode.placesBelow path index nodes).length = TreeNode.countAll nodes
  | [] => by rw [TreeNode.placesBelow, TreeNode.countAll, List.length_nil]
  | node :: rest => by
    rw [TreeNode.placesBelow, TreeNode.countAll, List.length_append, TreeNode.length_places,
      TreeNode.length_placesBelow]
end

theorem TreeDocument.length_places (document : TreeDocument) :
    document.places.length = document.size := by
  have hfrom : ∀ (nodes : List TreeNode) (index : Nat),
      (TreeDocument.placesFrom index nodes).length = TreeNode.countAll nodes := by
    intro nodes
    induction nodes with
    | nil => intro _; rfl
    | cons node rest ih =>
      intro index
      rw [TreeDocument.placesFrom, TreeNode.countAll, List.length_append, ih,
        TreeNode.length_places]
  exact hfrom document.roots 0

/-! ## Visits -/

/-- A node as an import with these decisions comes to it. -/
structure Visit (now : Timestamp) (decisions : Decisions) where
  node : TreeNode
  path : NodePath
  /-- The entity that stands for the parent in the tree. -/
  treeParent : Option Id
  /-- The store that the visit finds. -/
  before : Store

namespace Visit

variable {now : Timestamp} {decisions : Decisions}

/-- Where the node stands in the document. -/
def place (v : Visit now decisions) : NodePath × TreeNode := (v.path, v.node)

/-- What is to become of the node. -/
def decision (v : Visit now decisions) : Decision := decisions.decisionFor v.path

/-- The entity that the node is to be linked to: the one that its decision names, or else the one
that stands for its parent in the tree. -/
def parent (v : Visit now decisions) : Option Id := v.decision.parent?.or v.treeParent

/-- What applying the node gives. -/
def outcome (v : Visit now decisions) : Except Refusal (NodeEffect × Store) :=
  v.before.admitNode now v.node v.decision v.treeParent

/-- What applying the node did; nothing when it failed. -/
def effect? (v : Visit now decisions) : Option NodeEffect :=
  match v.outcome with
  | .ok (effect, _) => some effect
  | .error _ => none

/-- The failure of the node, when it failed. -/
def failure? (v : Visit now decisions) : Option NodeFailure :=
  match v.outcome with
  | .ok _ => none
  | .error cause => some { name := v.node.name, path := v.path, cause }

/-- The store that the visit leaves. -/
def after (v : Visit now decisions) : Store :=
  match v.outcome with
  | .ok (_, after) => after
  | .error _ => v.before

/-- What became of the node; nothing when it failed. -/
def fate? (v : Visit now decisions) : Option NodeFate := v.effect?.map NodeEffect.fate

/-- The entity that stands for the node from now on. -/
def resolved (v : Visit now decisions) : Option Id := v.effect?.bind NodeEffect.resolved

/-- The entity that the node was created as or merged into. -/
def touched? (v : Visit now decisions) : Option Id :=
  if v.fate? = some .skipped then none else v.resolved

theorem resolved_of_effect {v : Visit now decisions} {effect : NodeEffect}
    (h : v.effect? = some effect) : v.resolved = effect.resolved := by
  rw [resolved, h, Option.bind_some]

/-- A visit fails and leaves what it found, or it does what its effect says. -/
theorem cases (v : Visit now decisions) :
    (v.effect? = none ∧ v.after = v.before ∧ ∃ cause, v.outcome = .error cause ∧
        v.failure? = some { name := v.node.name, path := v.path, cause }) ∨
    (v.failure? = none ∧ ∃ effect, v.outcome = .ok (effect, v.after) ∧ v.effect? = some effect ∧
        v.before.Admitted now v.node v.decision v.treeParent effect v.after) := by
  unfold effect? failure? after
  cases h : v.outcome with
  | error cause => exact .inl ⟨rfl, rfl, cause, rfl, rfl⟩
  | ok result => exact .inr ⟨rfl, result.1, rfl, rfl, Store.admitted_of_ok h⟩

theorem keyed_after {now : Moment} {decisions : Decisions} (v : Visit now.text decisions)
    (h : v.before.Keyed) : v.after.Keyed := by
  rcases v.cases with ⟨_, hafter, _⟩ | ⟨_, effect, houtcome, _, _⟩
  · rwa [hafter]
  · exact (Store.admitNode_writes houtcome).keeps Store.Write.keyed h

/-! ## Rows of visits -/

/-- The store after some visits. -/
def storeAfter (s : Store) : List (Visit now decisions) → Store
  | [] => s
  | v :: rest => storeAfter v.after rest

/-- Every visit finds the store that the one before it left. -/
def Chained (s : Store) : List (Visit now decisions) → Prop
  | [] => True
  | v :: rest => v.before = s ∧ Chained v.after rest

variable {s : Store} {visits earlier later : List (Visit now decisions)}

@[simp] theorem storeAfter_append :
    storeAfter s (earlier ++ later) = storeAfter (storeAfter s earlier) later := by
  induction earlier generalizing s with
  | nil => rfl
  | cons v rest ih => exact ih

theorem chained_append :
    Chained s (earlier ++ later) ↔ Chained s earlier ∧ Chained (storeAfter s earlier) later := by
  induction earlier generalizing s with
  | nil => simp [Chained, storeAfter]
  | cons v rest ih =>
    rw [List.cons_append, Chained, Chained, storeAfter, ih, and_assoc]

/-- Where every visit of a chain leads from the store it finds to a store related to it, so does the
chain. -/
theorem Chained.relates {R : Store → Store → Prop} (hrefl : ∀ s, R s s)
    (htrans : ∀ {a b c}, R a b → R b c → R a c) (h : Chained s visits)
    (hvisit : ∀ v ∈ visits, R v.before v.after) : R s (storeAfter s visits) := by
  induction visits generalizing s with
  | nil => exact hrefl s
  | cons v rest ih =>
    obtain ⟨rfl, hrest⟩ := h
    exact htrans (hvisit v List.mem_cons_self)
      (ih hrest fun u hu => hvisit u (List.mem_cons_of_mem _ hu))

theorem Chained.keyed {now : Moment} {visits : List (Visit now.text decisions)}
    (h : Chained s visits) (hs : s.Keyed) : (storeAfter s visits).Keyed :=
  h.relates (R := fun a b => a.Keyed → b.Keyed) (fun _ ha => ha) (fun hab hbc ha => hbc (hab ha))
    (fun v _ => v.keyed_after) hs

/-! ## The visits of a walk -/

mutual
/-- The visits to a node and to everything below it. -/
def ofTree (now : Timestamp) (decisions : Decisions) (path : NodePath) (treeParent : Option Id)
    (s : Store) : TreeNode → List (Visit now decisions)
  | ⟨name, entityType, aliases, description, observations, relationType, children⟩ =>
    let first : Visit now decisions :=
      { node := ⟨name, entityType, aliases, description, observations, relationType, children⟩
        path, treeParent, before := s }
    first :: ofTrees now decisions path first.resolved 0 first.after children
termination_by structural node => node
/-- The visits to the children of a node from an index on, and to everything below them. -/
def ofTrees (now : Timestamp) (decisions : Decisions) (path : NodePath) (treeParent : Option Id)
    (index : Nat) (s : Store) : List TreeNode → List (Visit now decisions)
  | [] => []
  | node :: rest =>
    let first := ofTree now decisions (path.child index) treeParent s node
    first ++ ofTrees now decisions path treeParent (index + 1) (storeAfter s first) rest
termination_by structural nodes => nodes
end

/-- The visits to the trees of a document from an index on. -/
def ofRoots (now : Timestamp) (decisions : Decisions) (index : Nat) (s : Store) :
    List TreeNode → List (Visit now decisions)
  | [] => []
  | node :: rest =>
    let first := ofTree now decisions { root := index } none s node
    first ++ ofRoots now decisions (index + 1) (storeAfter s first) rest

mutual
theorem chained_ofTree (path : NodePath) (treeParent : Option Id) (s : Store) :
    (node : TreeNode) → Chained s (ofTree now decisions path treeParent s node)
  | ⟨name, entityType, aliases, description, observations, relationType, children⟩ => by
    rw [ofTree]
    exact ⟨rfl, chained_ofTrees path _ 0 _ children⟩
theorem chained_ofTrees (path : NodePath) (treeParent : Option Id) (index : Nat) (s : Store) :
    (nodes : List TreeNode) → Chained s (ofTrees now decisions path treeParent index s nodes)
  | [] => by
    rw [ofTrees]
    exact trivial
  | node :: rest => by
    rw [ofTrees]
    exact chained_append.2 ⟨chained_ofTree (path.child index) treeParent s node,
      chained_ofTrees path treeParent (index + 1) _ rest⟩
end

theorem chained_ofRoots (index : Nat) (s : Store) (nodes : List TreeNode) :
    Chained s (ofRoots now decisions index s nodes) := by
  induction nodes generalizing index s with
  | nil => exact trivial
  | cons node rest ih =>
    exact chained_append.2 ⟨chained_ofTree { root := index } none s node, ih (index + 1) _⟩

mutual
theorem places_ofTree (path : NodePath) (treeParent : Option Id) (s : Store) :
    (node : TreeNode) →
      (ofTree now decisions path treeParent s node).map place = node.places path
  | ⟨name, entityType, aliases, description, observations, relationType, children⟩ => by
    rw [ofTree, TreeNode.places, List.map_cons, places_ofTrees]
    rfl
theorem places_ofTrees (path : NodePath) (treeParent : Option Id) (index : Nat) (s : Store) :
    (nodes : List TreeNode) →
      (ofTrees now decisions path treeParent index s nodes).map place =
        TreeNode.placesBelow path index nodes
  | [] => by rw [ofTrees, TreeNode.placesBelow, List.map_nil]
  | node :: rest => by
    rw [ofTrees, TreeNode.placesBelow, List.map_append, places_ofTree, places_ofTrees]
end

theorem places_ofRoots (index : Nat) (s : Store) (nodes : List TreeNode) :
    (ofRoots now decisions index s nodes).map place = TreeDocument.placesFrom index nodes := by
  induction nodes generalizing index s with
  | nil => rfl
  | cons node rest ih =>
    rw [ofRoots, TreeDocument.placesFrom, List.map_append, places_ofTree, ih]

/-! ## Parents -/

/-- A visit comes to a root and knows of no parent, or it comes to a child of another node visited
and knows of the entity that stands for this node. -/
def HangsIn (visits : List (Visit now decisions)) (v : Visit now decisions) : Prop :=
  (v.path.below = [] ∧ v.treeParent = none) ∨
  ∃ u ∈ visits, ∃ index, u.node.children[index]? = some v.node ∧ v.path = u.path.child index ∧
    v.treeParent = u.resolved

theorem HangsIn.mono {v : Visit now decisions} {others : List (Visit now decisions)}
    (h : HangsIn visits v) (hsub : visits ⊆ others) : HangsIn others v := by
  rcases h with hroot | ⟨u, hu, hchild⟩
  · exact .inl hroot
  · exact .inr ⟨u, hsub hu, hchild⟩

mutual
/-- Of the visits to a tree only the first one may hang elsewhere. -/
theorem hangs_ofTree (path : NodePath) (treeParent : Option Id) (s : Store) :
    (node : TreeNode) → ∀ v ∈ ofTree now decisions path treeParent s node,
      (v.node = node ∧ v.path = path ∧ v.treeParent = treeParent) ∨
        HangsIn (ofTree now decisions path treeParent s node) v
  | ⟨name, entityType, aliases, description, observations, relationType, children⟩ => by
    intro v hv
    rw [ofTree] at hv ⊢
    rcases List.mem_cons.1 hv with rfl | hv
    · exact .inl ⟨rfl, rfl, rfl⟩
    · right
      rcases hangs_ofTrees path _ 0 _ children v hv with ⟨index, hchild, hpath, hparent⟩ | hangs
      · rw [Nat.zero_add] at hpath
        exact .inr ⟨_, List.mem_cons_self, index, hchild, hpath, hparent⟩
      · exact hangs.mono (List.subset_cons_self _ _)
/-- Of the visits to the children of a node, only those to the children themselves may hang
elsewhere. -/
theorem hangs_ofTrees (path : NodePath) (treeParent : Option Id) (start : Nat) (s : Store) :
    (nodes : List TreeNode) → ∀ v ∈ ofTrees now decisions path treeParent start s nodes,
      (∃ index, nodes[index]? = some v.node ∧ v.path = path.child (start + index) ∧
        v.treeParent = treeParent) ∨
      HangsIn (ofTrees now decisions path treeParent start s nodes) v
  | [] => by
    intro v hv
    rw [ofTrees] at hv
    cases hv
  | node :: rest => by
    intro v hv
    rw [ofTrees] at hv ⊢
    rcases List.mem_append.1 hv with hv | hv
    · rcases hangs_ofTree (path.child start) treeParent s node v hv with
        ⟨hnode, hpath, hparent⟩ | hangs
      · exact .inl ⟨0, congrArg some hnode.symm, hpath, hparent⟩
      · exact .inr (hangs.mono (List.subset_append_left _ _))
    · rcases hangs_ofTrees path treeParent (start + 1) _ rest v hv with
        ⟨index, hchild, hpath, hparent⟩ | hangs
      · refine .inl ⟨index + 1, hchild, ?_, hparent⟩
        rw [hpath, Nat.add_assoc, Nat.add_comm 1]
      · exact .inr (hangs.mono (List.subset_append_right _ _))
end

theorem hangs_ofRoots (start : Nat) (s : Store) (nodes : List TreeNode) :
    ∀ v ∈ ofRoots now decisions start s nodes, HangsIn (ofRoots now decisions start s nodes) v := by
  induction nodes generalizing start s with
  | nil =>
    intro v hv
    cases hv
  | cons node rest ih =>
    intro v hv
    rw [ofRoots] at hv ⊢
    rcases List.mem_append.1 hv with hv | hv
    · rcases hangs_ofTree { root := start } none s node v hv with ⟨_, hpath, hparent⟩ | hangs
      · exact .inl ⟨congrArg NodePath.below hpath, hparent⟩
      · exact hangs.mono (List.subset_append_left _ _)
    · exact (ih (start + 1) _ v hv).mono (List.subset_append_right _ _)

end Visit

/-! ## Walking as visiting -/

/-- Count what a visit did, or its failure. -/
def ImportReport.record {now : Timestamp} {decisions : Decisions} (report : ImportReport)
    (v : Visit now decisions) : ImportReport :=
  match v.outcome with
  | .ok (effect, _) => report.tally effect
  | .error cause =>
    { report with
      failures := report.failures ++ [{ name := v.node.name, path := v.path, cause }] }

namespace ImportRun

variable {now : Timestamp} {decisions : Decisions}

/-- A run after some visits more. -/
def replay (run : ImportRun) (visits : List (Visit now decisions)) : ImportRun where
  store := Visit.storeAfter run.store visits
  report := visits.foldl ImportReport.record run.report

theorem replay_append (run : ImportRun) (earlier later : List (Visit now decisions)) :
    run.replay (earlier ++ later) = (run.replay earlier).replay later := by
  simp [replay]

theorem visit_eq (node : TreeNode) (path : NodePath) (treeParent : Option Id) (run : ImportRun) :
    let v : Visit now decisions := { node, path, treeParent, before := run.store }
    run.visit now decisions node path treeParent = (run.replay [v], v.resolved) := by
  intro v
  have houtcome : run.store.admitNode now node (decisions.decisionFor path) treeParent =
    v.outcome := rfl
  unfold visit
  rw [houtcome]
  simp only [replay, Visit.storeAfter, Visit.after, Visit.resolved, Visit.effect?, List.foldl_cons,
    List.foldl_nil, ImportReport.record]
  cases v.outcome <;> rfl

mutual
theorem descend_eq (path : NodePath) (treeParent : Option Id) (run : ImportRun) :
    (node : TreeNode) →
      run.descend now decisions path treeParent node =
        run.replay (Visit.ofTree now decisions path treeParent run.store node)
  | ⟨name, entityType, aliases, description, observations, relationType, children⟩ => by
    rw [descend, Visit.ofTree, visit_eq]
    dsimp only
    rw [descendAll_eq, ← List.singleton_append, replay_append]
    rfl
theorem descendAll_eq (path : NodePath) (treeParent : Option Id) (index : Nat) (run : ImportRun) :
    (nodes : List TreeNode) →
      run.descendAll now decisions path treeParent index nodes =
        run.replay (Visit.ofTrees now decisions path treeParent index run.store nodes)
  | [] => by
    rw [descendAll, Visit.ofTrees]
    rfl
  | node :: rest => by
    rw [descendAll, Visit.ofTrees, descend_eq, descendAll_eq, replay_append]
    rfl
end

theorem descendRoots_eq (index : Nat) (run : ImportRun) (nodes : List TreeNode) :
    run.descendRoots now decisions index nodes =
      run.replay (Visit.ofRoots now decisions index run.store nodes) := by
  induction nodes generalizing index run with
  | nil => rfl
  | cons node rest ih =>
    rw [descendRoots, Visit.ofRoots, descend_eq, replay_append]
    exact ih (index + 1) _

end ImportRun

namespace Store

/-- The visits of an import. -/
def visits (s : Store) (now : Timestamp) (decisions : Decisions) (document : TreeDocument) :
    List (Visit now decisions) :=
  Visit.ofRoots now decisions 0 s document.roots

variable {s : Store} {now : Timestamp} {decisions : Decisions} {document : TreeDocument}

theorem chained_visits : Visit.Chained s (s.visits now decisions document) :=
  Visit.chained_ofRoots 0 s document.roots

/-- An import visits the nodes of the document in their order. -/
theorem places_visits : (s.visits now decisions document).map Visit.place = document.places :=
  Visit.places_ofRoots 0 s document.roots

theorem length_visits : (s.visits now decisions document).length = document.size := by
  rw [← document.length_places, ← @places_visits s now decisions, List.length_map]

theorem hangs_visits : ∀ v ∈ s.visits now decisions document,
    Visit.HangsIn (s.visits now decisions document) v :=
  Visit.hangs_ofRoots 0 s document.roots

/-- The report of an import with these visits, before the mode is looked at. -/
def visitsReport (s : Store) (now : Timestamp) (decisions : Decisions) (document : TreeDocument) :
    ImportReport :=
  (s.visits now decisions document).foldl ImportReport.record {}

/-- An import gives what its visits tell, or as an atomic one with a failure nothing. -/
theorem runImport_eq (mode : ImportMode) :
    s.runImport now document decisions mode =
      if mode = .atomic ∧ (s.visitsReport now decisions document).failures ≠ [] then
        ({ failures := (s.visitsReport now decisions document).failures, rolledBack := true }, s)
      else
        (s.visitsReport now decisions document,
          Visit.storeAfter s (s.visits now decisions document)) := by
  have hfailed (report : ImportReport) : report.success = false ↔ report.failures ≠ [] := by
    simp [ImportReport.success]
  unfold runImport
  rw [ImportRun.descendRoots_eq]
  simp only [hfailed]
  rfl

end Store
end MemoryGraph
