-- SUMMARY: The paths in a comparison are those that an import looks its decisions up by, and no two nodes share one.
import MemoryGraph.Proofs.Accounting
import MemoryGraph.Proofs.Compared
import MemoryGraph.Proofs.Places
import Mathlib.Data.Fintype.EquivFin

/-!
# Paths as keys

A comparison tells a client under which paths to put its decisions. It has one
result for each node, in reading order, and the paths of any two results are
written differently. An import looks up a decision for each of these paths and
for no other: maps that agree on them do the same, and for every one of them
there are two maps that differ there alone and do not.
-/
namespace MemoryGraph

open Text

variable {s : Store} {now : Timestamp} {decisions decisions' : Decisions}
  {document : TreeDocument}

/-! ## Results -/

/-- A result speaks of the node at a place; a root has no parent in the tree, any other node has. -/
structure NodeComparison.Describes (r : NodeComparison) (place : NodePath × TreeNode) : Prop where
  path : r.path = place.1
  name : r.name = place.2.name
  entityType : r.entityType = place.2.entityType
  parent : r.parentName = none ↔ place.1.below = []

theorem Store.Compared.describes {r : NodeComparison} {place : NodePath × TreeNode}
    (h : s.Compared r place) : r.Describes place := by
  cases h with
  | root index node => exact ⟨rfl, rfl, rfl, by simp [compareRoot]⟩
  | child path index node parentName =>
    exact ⟨rfl, rfl, rfl, by simp [compareChild, NodePath.child]⟩

theorem Store.Compared.isSome_childPlan {r : NodeComparison} {place : NodePath × TreeNode}
    (h : s.Compared r place) : r.childPlan.isSome = true ↔ place.1.below ≠ [] := by
  cases h with
  | root index node => simp [compareRoot]
  | child path index node parentName =>
    unfold compareChild
    cases s.entityOf? (trim node.name) (trim node.entityType) <;> simp [NodePath.child]

/-! ## Counts -/

namespace Comparison

theorem countConfidence_add (comparison : Comparison) :
    comparison.countConfidence .high + comparison.countConfidence .low +
      comparison.countConfidence .new = comparison.results.length := by
  unfold countConfidence
  induction comparison.results with
  | nil => rfl
  | cons r rest ih => cases hr : r.confidence <;> simp [hr] <;> omega

theorem countPlan_add (comparison : Comparison) :
    comparison.countPlan .create + comparison.countPlan .addRelation + comparison.countPlan .skip =
      comparison.results.countP (fun r => r.childPlan.isSome) := by
  unfold countPlan
  induction comparison.results with
  | nil => rfl
  | cons r rest ih =>
    cases hr : r.childPlan with
    | none => simp [hr]; omega
    | some plan => cases plan <;> simp [hr] <;> omega

end Comparison

/-- The nodes below the roots are those with a plan. -/
theorem Store.countP_childPlan (s : Store) (document : TreeDocument) :
    (s.compareDocument document).results.countP (fun r => r.childPlan.isSome) =
      document.places.countP (fun place => place.1.below ≠ []) := by
  have hall := s.forall₂_compareDocument document
  generalize (s.compareDocument document).results = results at hall ⊢
  generalize document.places = places at hall ⊢
  induction hall with
  | nil => rfl
  | cons hplace _ ih =>
    rw [List.countP_cons, List.countP_cons, ih]
    simp only [hplace.isSome_childPlan, decide_eq_true_eq]

/-! ## Lookups -/

namespace ImportRun

theorem visit_congr {path : NodePath}
    (h : decisions.decisionFor path = decisions'.decisionFor path) (node : TreeNode)
    (treeParent : Option Id) (run : ImportRun) :
    run.visit now decisions node path treeParent =
      run.visit now decisions' node path treeParent := by
  unfold visit
  rw [h]

mutual
/-- What is done with a tree depends on the decisions for its nodes alone. -/
theorem descend_congr (path : NodePath) (treeParent : Option Id) (run : ImportRun) :
    (node : TreeNode) →
      (∀ place ∈ node.places path,
        decisions.decisionFor place.1 = decisions'.decisionFor place.1) →
      run.descend now decisions path treeParent node =
        run.descend now decisions' path treeParent node
  | ⟨name, entityType, aliases, description, observations, relationType, children⟩, h => by
    rw [TreeNode.places, List.forall_mem_cons] at h
    rw [descend, descend, visit_congr h.1]
    exact descendAll_congr path _ 0 _ children h.2
theorem descendAll_congr (path : NodePath) (treeParent : Option Id) (index : Nat)
    (run : ImportRun) :
    (nodes : List TreeNode) →
      (∀ place ∈ TreeNode.placesBelow path index nodes,
        decisions.decisionFor place.1 = decisions'.decisionFor place.1) →
      run.descendAll now decisions path treeParent index nodes =
        run.descendAll now decisions' path treeParent index nodes
  | [], _ => by rw [descendAll, descendAll]
  | node :: rest, h => by
    rw [TreeNode.placesBelow, List.forall_mem_append] at h
    rw [descendAll, descendAll, descend_congr (path.child index) treeParent run node h.1]
    exact descendAll_congr path treeParent (index + 1) _ rest h.2
end

theorem descendRoots_congr (index : Nat) (run : ImportRun) (nodes : List TreeNode)
    (h : ∀ place ∈ TreeDocument.placesFrom index nodes,
      decisions.decisionFor place.1 = decisions'.decisionFor place.1) :
    run.descendRoots now decisions index nodes = run.descendRoots now decisions' index nodes := by
  induction nodes generalizing index run with
  | nil => rfl
  | cons node rest ih =>
    rw [TreeDocument.placesFrom, List.forall_mem_append] at h
    rw [descendRoots, descendRoots, descend_congr { root := index } none run node h.1]
    exact ih (index + 1) _ h.2

end ImportRun

namespace Store

theorem runImport_congr (mode : ImportMode)
    (h : ∀ place ∈ document.places,
      decisions.decisionFor place.1 = decisions'.decisionFor place.1) :
    s.runImport now document decisions mode = s.runImport now document decisions' mode := by
  unfold runImport
  rw [ImportRun.descendRoots_congr 0 _ document.roots h]

/-! ## Every key counts -/

/-- The decisions to skip every node. -/
def skipAll (document : TreeDocument) : Decisions :=
  document.places.map fun place => (place.1.render, .skip none none)

theorem decisionFor_skipAll {path : NodePath} (h : path ∈ document.places.map Prod.fst) :
    (skipAll document).decisionFor path = .skip none none := by
  unfold skipAll Decisions.decisionFor
  generalize document.places = places at h ⊢
  induction places with
  | nil => cases h
  | cons place rest ih =>
    rw [List.map_cons, List.lookup_cons]
    by_cases hkey : path.render = place.1.render
    · simp [hkey]
    · have hne : path ≠ place.1 := fun heq => hkey (congrArg _ heq)
      have hrest := (List.mem_cons.1 h).resolve_left hne
      rw [beq_false_of_ne hkey]
      exact ih hrest

end Store

namespace Visit

variable {visits : List (Visit now decisions)}

/-- A visit that skips its node succeeds and leaves the store as it is. -/
theorem still_of_skip {v : Visit now decisions} (h : v.decision = .skip none none) :
    v.failure? = none ∧ v.after = v.before := by
  unfold failure? after outcome
  rw [h]
  exact ⟨rfl, rfl⟩

/-- A visit that is to merge its node into an entity that is not there fails and leaves the store as
it is. -/
theorem still_of_missing {v : Visit now decisions} {id : Id} (h : v.decision = .merge id none)
    (hid : ¬ v.before.HasEntity id) : v.failure? ≠ none ∧ v.after = v.before := by
  have houtcome : v.outcome = .error (.notFound (.entity id)) := by
    unfold outcome Store.admitNode
    simp only [h, Store.existing_eq_error.2 ⟨hid, rfl⟩]
    rfl
  unfold failure? after
  rw [houtcome]
  exact ⟨by simp, rfl⟩

/-- Where no visit changes the store, all of them find the first one. -/
theorem Chained.before_eq (h : Chained s visits)
    (hstill : ∀ v ∈ visits, v.before = s → v.after = s) : ∀ v ∈ visits, v.before = s := by
  induction visits with
  | nil => simp
  | cons v rest ih =>
    obtain ⟨hbefore, hrest⟩ := h
    rw [List.forall_mem_cons] at hstill ⊢
    rw [hstill.1 hbefore] at hrest
    exact ⟨hbefore, ih hrest hstill.2⟩

end Visit

namespace Store

theorem mem_places_of_visit {v : Visit now decisions} (h : v ∈ s.visits now decisions document) :
    v.path ∈ document.places.map Prod.fst := by
  have hplace : v.place ∈ document.places := by
    rw [← places_visits]
    exact List.mem_map_of_mem h
  exact List.mem_map_of_mem hplace

theorem exists_visit {path : NodePath} (h : path ∈ document.places.map Prod.fst) :
    ∃ v ∈ s.visits now decisions document, v.path = path := by
  rw [← @places_visits s now decisions, List.map_map] at h
  exact List.mem_map.1 h

theorem exists_missing (s : Store) : ∃ id, ¬ s.HasEntity id := by
  obtain ⟨id, hid⟩ := Infinite.exists_notMem_finset (s.entities.map Entity.id).toFinset
  rw [List.mem_toFinset, ← hasEntity_iff_mem_ids] at hid
  exact ⟨id, hid⟩

/-- An import that skips all nodes but one succeeds if that one is skipped as well, and fails if it
is to be merged into an entity that is not there. -/
theorem exists_runImport_ne (s : Store) (now : Timestamp) (mode : ImportMode) {path : NodePath}
    (h : path ∈ document.places.map Prod.fst) :
    ∃ decisions decisions' : Decisions,
      (∀ key, key ≠ path.render → decisions.lookup key = decisions'.lookup key) ∧
      s.runImport now document decisions mode ≠ s.runImport now document decisions' mode := by
  obtain ⟨id, hid⟩ := s.exists_missing
  refine ⟨skipAll document, (path.render, .merge id none) :: skipAll document, ?_, ?_⟩
  · intro key hkey
    rw [List.lookup_cons, beq_false_of_ne hkey]
  · intro hsame
    have hsuccess : (s.runImport now document (skipAll document) mode).1.success = true :=
      success_of_visits mode fun v hv =>
        (Visit.still_of_skip (decisionFor_skipAll (mem_places_of_visit hv))).1
    rw [hsame] at hsuccess
    obtain ⟨hnone, _⟩ := runImport_of_success hsuccess
    -- As no visit changes the store, the one to the other node looks for the entity in it.
    have hmerge {v : Visit now ((path.render, .merge id none) :: skipAll document)}
        (hpath : v.path = path) : v.decision = .merge id none := by
      simp [Visit.decision, Decisions.decisionFor, hpath]
    have hstill : ∀ v ∈ s.visits now ((path.render, .merge id none) :: skipAll document) document,
        v.before = s → v.after = s := by
      intro v hv hbefore
      by_cases hpath : v.path = path
      · rw [(Visit.still_of_missing (hmerge hpath) (hbefore ▸ hid)).2, hbefore]
      · have hskip : v.decision = .skip none none := by
          have hkey : v.path.render ≠ path.render := fun heq =>
            hpath (NodePath.render_injective heq)
          rw [← decisionFor_skipAll (mem_places_of_visit hv), Visit.decision, Decisions.decisionFor,
            List.lookup_cons, beq_false_of_ne hkey, Decisions.decisionFor]
        rw [(Visit.still_of_skip hskip).2, hbefore]
    obtain ⟨v, hv, hpath⟩ := @exists_visit s now _ document path h
    have hbefore := chained_visits.before_eq hstill v hv
    exact (Visit.still_of_missing (hmerge hpath) (hbefore ▸ hid)).1 (hnone v hv)

end Store

/-! ## Comparing and importing -/

/-- A visit comes to the node that a result speaks of, and looks its decision up under the path in
the result. -/
structure Visit.Heeds (v : Visit now decisions) (r : NodeComparison) : Prop where
  path : v.path = r.path
  describes : r.Describes v.place
  decision : v.decision = (decisions.lookup r.path.render).getD (.create none)

/-- What the paths in the comparison of a document are to its nodes. -/
structure NamesNodes (document : TreeDocument) (comparison : Comparison) : Prop where
  /-- There is one result for each place, in the order of the places. -/
  describes : List.Forall₂ NodeComparison.Describes comparison.results document.places
  nodes : ∀ path node, (path, node) ∈ document.places ↔ document.nodeAt? path = some node
  order : document.places.Pairwise fun a b => a.1.Precedes b.1
  distinct : (comparison.results.map fun r => r.path.render).Nodup
  total : comparison.summary.total = document.size
  confidences : comparison.summary.high + comparison.summary.low + comparison.summary.new =
    comparison.summary.total
  plans : comparison.summary.create + comparison.summary.addRelation + comparison.summary.skip =
    document.places.countP fun place => place.1.below ≠ []

/-- An import looks up its decisions under the paths of these results and under no other keys. -/
structure Store.LooksUp (s : Store) (now : Timestamp) (document : TreeDocument) (mode : ImportMode)
    (results : List NodeComparison) : Prop where
  visits : ∀ decisions : Decisions,
    List.Forall₂ (fun r v => v.Heeds r) results (s.visits now decisions document)
  agree : ∀ decisions decisions' : Decisions,
    (∀ r ∈ results, decisions.lookup r.path.render = decisions'.lookup r.path.render) →
      s.runImport now document decisions mode = s.runImport now document decisions' mode
  stray : ∀ (decisions : Decisions) (key : String) (decision : Decision),
    (∀ r ∈ results, r.path.render ≠ key) →
      s.runImport now document ((key, decision) :: decisions) mode =
        s.runImport now document decisions mode
  counts : ∀ r ∈ results, ∃ decisions decisions' : Decisions,
    (∀ key, key ≠ r.path.render → decisions.lookup key = decisions'.lookup key) ∧
      s.runImport now document decisions mode ≠ s.runImport now document decisions' mode

namespace Store

theorem map_path_results (s : Store) (document : TreeDocument) :
    (s.compareDocument document).results.map NodeComparison.path =
      document.places.map Prod.fst := by
  have hall := s.forall₂_compareDocument document
  rw [← List.forall₂_eq_eq_eq, List.forall₂_map_left_iff, List.forall₂_map_right_iff]
  exact hall.imp fun _ _ h => h.path_eq

theorem nodup_render (s : Store) (document : TreeDocument) :
    ((s.compareDocument document).results.map fun r => r.path.render).Nodup := by
  have hpaths : (document.places.map Prod.fst).Nodup := by
    rw [List.Nodup, List.pairwise_map]
    exact document.pairwise_places.imp NodePath.Precedes.ne
  rw [← s.map_path_results] at hpaths
  have hrendered := hpaths.map NodePath.render_injective
  rwa [List.map_map] at hrendered

theorem namesNodes (s : Store) (document : TreeDocument) :
    NamesNodes document (s.compareDocument document) where
  describes := (s.forall₂_compareDocument document).imp fun _ _ h => h.describes
  nodes _ _ := TreeDocument.mem_places
  order := document.pairwise_places
  distinct := s.nodup_render document
  total := by
    rw [← document.length_places]
    exact (s.forall₂_compareDocument document).length_eq
  confidences := Comparison.countConfidence_add _
  plans := (Comparison.countPlan_add _).trans (s.countP_childPlan document)

theorem heeds_visits (s t : Store) (now : Timestamp) (document : TreeDocument)
    (decisions : Decisions) :
    List.Forall₂ (fun r v => v.Heeds r) (s.compareDocument document).results
      (t.visits now decisions document) := by
  have hall := s.forall₂_compareDocument document
  rw [← @places_visits t now decisions, List.forall₂_map_right_iff] at hall
  refine hall.imp fun r v h => ?_
  have hpath : r.path = v.path := h.path_eq
  exact ⟨hpath.symm, h.describes, by rw [hpath]; rfl⟩

theorem mem_map_path {r : NodeComparison} (h : r ∈ (s.compareDocument document).results) :
    r.path ∈ document.places.map Prod.fst := by
  rw [← s.map_path_results]
  exact List.mem_map_of_mem h

/-- Decisions that agree under the paths of the results agree at all places. -/
theorem decisionFor_eq_of_agree
    (h : ∀ r ∈ (s.compareDocument document).results,
      decisions.lookup r.path.render = decisions'.lookup r.path.render) :
    ∀ place ∈ document.places, decisions.decisionFor place.1 = decisions'.decisionFor place.1 := by
  intro place hplace
  have hpath : place.1 ∈ (s.compareDocument document).results.map NodeComparison.path := by
    rw [s.map_path_results]
    exact List.mem_map_of_mem hplace
  obtain ⟨r, hr, hpath⟩ := List.mem_map.1 hpath
  rw [Decisions.decisionFor, Decisions.decisionFor, ← hpath, h r hr]

theorem looksUp (s t : Store) (now : Timestamp) (document : TreeDocument) (mode : ImportMode) :
    t.LooksUp now document mode (s.compareDocument document).results where
  visits := s.heeds_visits t now document
  agree _ _ h := runImport_congr mode (decisionFor_eq_of_agree h)
  stray decisions key decision h := by
    refine runImport_congr mode (decisionFor_eq_of_agree (s := s) fun r hr => ?_)
    rw [List.lookup_cons, beq_false_of_ne (h r hr)]
  counts r hr := t.exists_runImport_ne now mode (mem_map_path hr)

end Store

/-- The results of a comparison are one for each node of the document, in reading order and under
paths that are written differently. An import looks its decisions up under these paths: two maps of
decisions that agree on them do the same in every store, and none of the paths can be done
without. -/
theorem paths_name_nodes (s : Store) (document : TreeDocument) :
    NamesNodes document (s.compareDocument document) ∧
    ∀ (t : Store) (now : Timestamp) (mode : ImportMode),
      t.LooksUp now document mode (s.compareDocument document).results :=
  ⟨s.namesNodes document, fun t now mode => s.looksUp t now document mode⟩

end MemoryGraph
