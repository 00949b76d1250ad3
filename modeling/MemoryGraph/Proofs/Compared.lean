-- SUMMARY: Comparing a document with the graph gives one result for each place of the document, in their order.
import MemoryGraph.Import.Comparison
import MemoryGraph.Proofs.Visit
import Mathlib.Data.List.Forall2

/-!
# The results of a comparison

A comparison goes through the nodes of a document in the order of an import. It
looks at the root of each tree as a root and at every node below it as a child,
and it carries no store along: what it says of a node depends on this node, on
its path, and on the name above it alone.
-/
namespace MemoryGraph

namespace Store

/-- A result of comparing what stands at a place. -/
inductive Compared (s : Store) : NodeComparison → NodePath × TreeNode → Prop where
  | root (index : Nat) (node : TreeNode) :
      Compared s (s.compareRoot node { root := index }) ({ root := index }, node)
  | child (path : NodePath) (index : Nat) (node : TreeNode) (parentName : String) :
      Compared s (s.compareChild node (path.child index) parentName) (path.child index, node)

variable {s : Store} {document : TreeDocument}

theorem Compared.path_eq {r : NodeComparison} {place : NodePath × TreeNode}
    (h : s.Compared r place) : r.path = place.1 := by
  cases h <;> rfl

theorem Compared.eq_compareChild {r : NodeComparison} {place : NodePath × TreeNode}
    (h : s.Compared r place) (hbelow : place.1.below ≠ []) :
    ∃ parentName, r = s.compareChild place.2 place.1 parentName := by
  cases h with
  | root index node => exact absurd rfl hbelow
  | child path index node parentName => exact ⟨parentName, rfl⟩

/-! ## One result for each place -/

mutual
theorem forall₂_compareSubtree (s : Store) (path : NodePath) (index : Nat) (parentName : String) :
    (node : TreeNode) →
      List.Forall₂ s.Compared (s.compareSubtree (path.child index) parentName node)
        (node.places (path.child index))
  | ⟨name, entityType, aliases, description, observations, relationType, children⟩ => by
    rw [compareSubtree, TreeNode.places]
    exact .cons (.child path index _ parentName)
      (forall₂_compareSubtrees s (path.child index) name 0 children)
theorem forall₂_compareSubtrees (s : Store) (path : NodePath) (parentName : String) (index : Nat) :
    (nodes : List TreeNode) →
      List.Forall₂ s.Compared (s.compareSubtrees path parentName index nodes)
        (TreeNode.placesBelow path index nodes)
  | [] => by
    rw [compareSubtrees, TreeNode.placesBelow]
    exact .nil
  | node :: rest => by
    rw [compareSubtrees, TreeNode.placesBelow]
    exact List.rel_append (forall₂_compareSubtree s path index parentName node)
      (forall₂_compareSubtrees s path parentName (index + 1) rest)
end

theorem forall₂_compareTrees (s : Store) (index : Nat) (nodes : List TreeNode) :
    List.Forall₂ s.Compared (s.compareTrees index nodes)
      (TreeDocument.placesFrom index nodes) := by
  induction nodes generalizing index with
  | nil => exact .nil
  | cons node rest ih =>
    have htree : List.Forall₂ s.Compared
        (s.compareRoot node { root := index }
          :: s.compareSubtrees { root := index } node.name 0 node.children)
        (node.places { root := index }) := by
      obtain ⟨name, entityType, aliases, description, observations, relationType, children⟩ := node
      rw [TreeNode.places]
      exact .cons (.root index _) (forall₂_compareSubtrees s { root := index } name 0 children)
    rw [compareTrees, TreeDocument.placesFrom]
    exact List.rel_append htree (ih (index + 1))

/-- Every place of a document has one result, in the order of the places. -/
theorem forall₂_compareDocument (s : Store) (document : TreeDocument) :
    List.Forall₂ s.Compared (s.compareDocument document).results document.places :=
  forall₂_compareTrees s 0 document.roots

/-! ## The result for a root -/

mutual
theorem path_compareSubtree (s : Store) (path : NodePath) (parentName : String) :
    (node : TreeNode) → ∀ r ∈ s.compareSubtree path parentName node,
      r.path.root = path.root ∧ path.below.length ≤ r.path.below.length
  | ⟨name, entityType, aliases, description, observations, relationType, children⟩ => by
    intro r hr
    rw [compareSubtree] at hr
    rcases List.mem_cons.1 hr with rfl | hr
    · exact ⟨rfl, le_rfl⟩
    · obtain ⟨hroot, hbelow⟩ := path_compareSubtrees s path name 0 children r hr
      exact ⟨hroot, hbelow.le⟩
theorem path_compareSubtrees (s : Store) (path : NodePath) (parentName : String) (index : Nat) :
    (nodes : List TreeNode) → ∀ r ∈ s.compareSubtrees path parentName index nodes,
      r.path.root = path.root ∧ path.below.length < r.path.below.length
  | [] => by
    intro r hr
    rw [compareSubtrees] at hr
    cases hr
  | node :: rest => by
    intro r hr
    rw [compareSubtrees] at hr
    rcases List.mem_append.1 hr with hr | hr
    · exact path_compareSubtree s (path.child index) parentName node r hr
    · exact path_compareSubtrees s path parentName (index + 1) rest r hr
end

theorem path_compareTrees (s : Store) (index : Nat) (nodes : List TreeNode) :
    ∀ r ∈ s.compareTrees index nodes, index ≤ r.path.root := by
  induction nodes generalizing index with
  | nil =>
    intro r hr
    cases hr
  | cons node rest ih =>
    intro r hr
    rw [compareTrees] at hr
    rcases List.mem_append.1 hr with hr | hr
    · rcases List.mem_cons.1 hr with rfl | hr
      · exact le_rfl
      · exact (path_compareSubtrees s _ node.name 0 node.children r hr).1.ge
    · exact Nat.le_of_succ_le (ih (index + 1) r hr)

theorem filter_compareTrees (s : Store) {nodes : List TreeNode} {start index : Nat}
    {node : TreeNode} (h : nodes[index]? = some node) :
    (s.compareTrees start nodes).filter (fun r => r.path = { root := start + index }) =
      [s.compareRoot node { root := start + index }] := by
  induction nodes generalizing start index with
  | nil => cases h
  | cons first rest ih =>
    have hbelow : (s.compareSubtrees { root := start } first.name 0 first.children).filter
        (fun r => r.path = { root := start + index }) = [] := by
      rw [List.filter_eq_nil_iff]
      intro r hr hpath
      have hlength := (path_compareSubtrees s _ first.name 0 first.children r hr).2
      rw [of_decide_eq_true hpath] at hlength
      exact Nat.not_lt_zero _ hlength
    rw [compareTrees, List.filter_append, List.filter_cons, hbelow]
    cases index with
    | zero =>
      cases h
      have hrest : (s.compareTrees (start + 1) rest).filter
          (fun r => r.path = { root := start + 0 }) = [] := by
        rw [List.filter_eq_nil_iff]
        intro r hr hpath
        have hroot := path_compareTrees s (start + 1) rest r hr
        rw [of_decide_eq_true hpath] at hroot
        exact Nat.not_succ_le_self start hroot
      rw [hrest]
      simp [compareRoot]
    | succ index =>
      have hother : (s.compareRoot first { root := start }).path ≠
          { root := start + (index + 1) } := by
        simp [compareRoot]
      rw [decide_eq_false hother, ← Nat.add_assoc, Nat.add_right_comm]
      exact ih h

/-- Every root of a document has exactly one result. -/
theorem filter_results {index : Nat} {node : TreeNode}
    (h : document.roots[index]? = some node) :
    (s.compareDocument document).results.filter (fun r => r.path = { root := index }) =
      [s.compareRoot node { root := index }] := by
  have hfrom : (s.compareTrees 0 document.roots).filter
      (fun r => r.path = { root := 0 + index }) = [s.compareRoot node { root := 0 + index }] :=
    filter_compareTrees s h
  rw [Nat.zero_add] at hfrom
  exact hfrom

theorem eq_compareRoot {index : Nat} {node : TreeNode} (h : document.roots[index]? = some node)
    {r : NodeComparison} (hr : r ∈ (s.compareDocument document).results)
    (hpath : r.path = { root := index }) : r = s.compareRoot node { root := index } := by
  have hmem : r ∈ (s.compareDocument document).results.filter
      (fun r => r.path = { root := index }) :=
    List.mem_filter.2 ⟨hr, decide_eq_true hpath⟩
  rw [filter_results h] at hmem
  exact List.mem_singleton.1 hmem

end Store
end MemoryGraph
