-- SUMMARY: Deleting a node takes exactly what it dooms: the node, and in cascade all that is below it.
import MemoryGraph.Proofs.RoundTrip

/-!
# Deleting nodes

The search below a node ends on every graph, with cycles and shared children:
what it has seen is listed once, is below the node, and the children of what it
has left behind are seen. When its stack is empty it has therefore seen exactly
what is below the node. These entities are then deleted one by one, and none of
them is missing when its turn comes.
-/
namespace MemoryGraph.Store

open Text

/-! ## Searching below a node -/

section Descent

variable {s : Store} {seen stack : List Id} {id node child parent : Id}

theorem childOf_iff : s.ChildOf child parent ↔
    ∃ r ∈ s.relations, r.source = child ∧ r.target = parent ∧ r.isUpward = true := by
  simp only [ChildOf, mem_triples]
  constructor
  · rintro ⟨_, htype, r, hr, hsource, htarget, rfl⟩
    exact ⟨r, hr, hsource, htarget, htype⟩
  · rintro ⟨r, hr, hsource, htarget, htype⟩
    exact ⟨_, htype, r, hr, hsource, htarget, rfl⟩

theorem mem_newChildren :
    child ∈ s.newChildren seen parent ↔ s.ChildOf child parent ∧ child ∉ seen := by
  grind [newChildren, mem_distinct, relationsFromChildren, childOf_iff]

/-- The search midway, with what it has seen and the part of it that it has yet to look below. -/
structure Descent (s : Store) (node : Id) (seen stack : List Id) : Prop where
  nodup : seen.Nodup
  start : node ∈ seen
  below : ∀ id ∈ seen, Relation.ReflTransGen s.ChildOf id node
  stack_subset : stack ⊆ seen
  children : ∀ parent ∈ seen, parent ∉ stack → ∀ child, s.ChildOf child parent → child ∈ seen

theorem Descent.first (s : Store) (node : Id) : s.Descent node [node] [node] where
  nodup := by simp
  start := by simp
  below := by simp [Relation.ReflTransGen.refl]
  stack_subset := by simp
  children := by simp

/-- Looking below one entity. -/
theorem Descent.step (h : s.Descent node seen (id :: stack)) :
    s.Descent node (seen ++ s.newChildren seen id) ((s.newChildren seen id).reverse ++ stack) where
  nodup := by
    apply h.nodup.append (distinct_nodup _)
    intro child hseen hnew
    exact (mem_newChildren.1 hnew).2 hseen
  start := by simp [h.start]
  below := by
    intro child hchild
    rcases List.mem_append.1 hchild with hseen | hnew
    · exact h.below child hseen
    · have hid : id ∈ seen := h.stack_subset List.mem_cons_self
      exact .head (mem_newChildren.1 hnew).1 (h.below id hid)
  stack_subset := by
    have hstack : stack ⊆ seen := (List.cons_subset.1 h.stack_subset).2
    simp [List.subset_append_of_subset_left _ hstack]
  children := by
    intro parent hparent hoff child hchild
    simp only [List.mem_append, List.mem_reverse, not_or] at hparent hoff ⊢
    have hseen : parent ∈ seen := hparent.resolve_right hoff.1
    by_cases hid : parent = id
    · by_cases hnew : child ∈ seen
      · exact .inl hnew
      · exact .inr (mem_newChildren.2 ⟨hid ▸ hchild, hnew⟩)
    · apply Or.inl
      apply h.children parent hseen _ child hchild
      simp [hid, hoff.2]

/-- Finding no new children is like putting none of them on the stack. -/
theorem collectBelow_cons (s : Store) (seen : List Id) (id : Id) (stack : List Id) :
    s.collectBelow seen (id :: stack) =
      s.collectBelow (seen ++ s.newChildren seen id) ((s.newChildren seen id).reverse ++ stack) := by
  rw [collectBelow]
  by_cases hnone : s.newChildren seen id = []
  · simp [hnone]
  · simp [hnone]

theorem Descent.collectBelow (h : s.Descent node seen stack) :
    s.Descent node (s.collectBelow seen stack) [] := by
  induction seen, stack using Store.collectBelow.induct s with
  | case1 seen => simpa [Store.collectBelow] using h
  | case2 seen id stack found hnone ih =>
    have hstep := h.step
    simp only [found] at hnone
    rw [collectBelow_cons]
    simp only [hnone, List.append_nil, List.reverse_nil, List.nil_append] at hstep ⊢
    exact ih hstep
  | case3 seen id stack found hsome ih =>
    rw [collectBelow_cons]
    exact ih h.step

/-- A search that has looked below all it has seen has seen everything below the node. -/
theorem Descent.mem_iff (h : s.Descent node seen []) :
    id ∈ seen ↔ Relation.ReflTransGen s.ChildOf id node := by
  constructor
  · exact h.below id
  · intro hbelow
    induction hbelow using Relation.ReflTransGen.head_induction_on with
    | refl => exact h.start
    | head hchild _ ih => exact h.children _ ih (by simp) _ hchild

theorem mem_subtree : id ∈ s.subtree node ↔ Relation.ReflTransGen s.ChildOf id node :=
  (Descent.first s node).collectBelow.mem_iff

theorem subtree_nodup (s : Store) (node : Id) : (s.subtree node).Nodup :=
  (Descent.first s node).collectBelow.nodup

end Descent

/-! ## Deleting -/

/-- The store without some entities, their observations and the relations at them. -/
def without (s : Store) (ids : List Id) : Store :=
  { s with
    entities := s.entities.filter fun e => e.id ∉ ids
    observations := s.observations.filter fun o => o.entityId ∉ ids
    relations := s.relations.filter fun r => r.source ∉ ids ∧ r.target ∉ ids }

section Without

variable {s : Store} {ids : List Id} {id node child parent : Id}

theorem without_nil (s : Store) : s.without [] = s := by simp [without]

theorem without_reverse (s : Store) (ids : List Id) : s.without ids.reverse = s.without ids := by
  simp [without]

theorem without_removeEntity (s : Store) (id : Id) (ids : List Id) :
    (s.removeEntity id).without ids = s.without (id :: ids) := by
  simp only [without, removeEntity, List.filter_filter, Store.mk.injEq, and_true]
  refine ⟨?_, ?_, ?_⟩
  all_goals
    apply List.filter_congr
    intro row _
    simp [Relation.touches, Bool.and_comm, Bool.and_assoc, Bool.and_left_comm]

/-- The relations from the children of a node go with the node. -/
theorem without_releaseChildren (s : Store) (hnode : node ∈ ids) :
    (s.releaseChildren node).without ids = s.without ids := by
  simp only [without, releaseChildren, List.filter_filter, Store.mk.injEq, true_and, and_true]
  apply List.filter_congr
  intro r _
  by_cases htarget : r.target = node <;> simp [htarget, hnode]

/-- Different entities that are there can be deleted one after the other. -/
theorem deleteAll_eq_ok (hnodup : ids.Nodup) (hthere : ∀ id ∈ ids, s.HasEntity id) :
    deleteAll ids s = .ok (s.without ids) := by
  induction ids generalizing s with
  | nil => simp [deleteAll, without_nil]
  | cons id rest ih =>
    obtain ⟨hfresh, hrest⟩ := List.nodup_cons.1 hnodup
    have hone : s.deleteEntity id = .ok (s.removeEntity id) :=
      deleteEntity_eq_ok.2 ⟨hthere id List.mem_cons_self, rfl⟩
    have hothers : ∀ other ∈ rest, (s.removeEntity id).HasEntity other := by
      intro other hother
      apply hasEntity_removeEntity
      · rintro rfl
        exact hfresh hother
      · exact hthere other (List.mem_cons_of_mem _ hother)
    apply bind_eq_ok.2 ⟨_, hone, _⟩
    simpa [without_removeEntity] using ih hrest hothers

theorem childOf_without :
    (s.without ids).ChildOf child parent ↔
      s.ChildOf child parent ∧ child ∉ ids ∧ parent ∉ ids := by
  grind [childOf_iff, without]

end Without

/-! ## Roots -/

section Roots

variable {s : Store} {node : Id} {e : Entity}

theorem isRoot_iff {id : Id} : s.isRoot id = true ↔ ∀ parent, ¬ s.ChildOf id parent := by
  constructor
  · intro hroot parent hchild
    obtain ⟨r, hr, hsource, _, hup⟩ := childOf_iff.1 hchild
    have hnone := List.filter_eq_nil_iff.1 (List.isEmpty_iff.1 hroot) r hr
    simp [hsource, hup] at hnone
  · intro hnone
    apply List.isEmpty_iff.2
    apply List.filter_eq_nil_iff.2
    intro r hr hkept
    have hkept : r.source = id ∧ r.isUpward = true := by simpa using hkept
    exact hnone r.target (childOf_iff.2 ⟨r, hr, hkept.1, rfl, hkept.2⟩)

theorem Linked.not_childOf_self (h : s.Linked) (id : Id) : ¬ s.ChildOf id id := by
  intro hchild
  obtain ⟨r, hr, hsource, htarget, _⟩ := childOf_iff.1 hchild
  exact h.no_loop r hr (hsource.trans htarget.symm)

/-- Without a node, its children that have no other parent are roots. -/
theorem Linked.mem_roots_without (h : s.Linked) :
    e ∈ (s.without [node]).roots ↔
      (e ∈ s.roots ∧ e.id ≠ node) ∨
      (e ∈ s.entities ∧ s.ChildOf e.id node ∧ ∀ parent, s.ChildOf e.id parent → parent = node) := by
  have hkept : e ∈ (s.without [node]).entities ↔ e ∈ s.entities ∧ e.id ≠ node := by
    simp [without]
  simp only [mem_roots, isRoot_iff, childOf_without, hkept, List.mem_singleton]
  constructor
  · rintro ⟨⟨he, hne⟩, hparents⟩
    have honly : ∀ parent, s.ChildOf e.id parent → parent = node := by
      intro parent hchild
      by_contra hother
      exact hparents parent ⟨hchild, hne, hother⟩
    by_cases hchild : s.ChildOf e.id node
    · exact .inr ⟨he, hchild, honly⟩
    · apply Or.inl
      refine ⟨⟨he, fun parent hparent => ?_⟩, hne⟩
      exact hchild (honly parent hparent ▸ hparent)
  · rintro (⟨⟨he, hroot⟩, hne⟩ | ⟨he, hchild, honly⟩)
    · exact ⟨⟨he, hne⟩, fun parent hparent => hroot parent hparent.1⟩
    · refine ⟨⟨he, ?_⟩, fun parent hparent => hparent.2.2 (honly parent hparent.1)⟩
      intro hself
      exact h.not_childOf_self node (hself ▸ hchild)

end Roots

/-! ## What a deletion takes and leaves -/

/-- The node goes, and in cascade whatever leads to it by one or more relations from child to
parent. -/
def Doomed (s : Store) (node : Id) (cascade : Bool) (id : Id) : Prop :=
  id = node ∨ cascade = true ∧ Relation.TransGen s.ChildOf id node

/-- A deletion has taken some entities and what hung on them, and left all else as it was. -/
structure Pruned (s : Store) (node : Id) (cascade : Bool) (gone : List Id) (after : Store) :
    Prop where
  nodup : gone.Nodup
  mem_gone : ∀ id, id ∈ gone ↔ s.Doomed node cascade id
  rest : after = s.without gone
  /-- What was a root stays one, and what had parents only in the node becomes one. -/
  roots : cascade = false → ∀ e, e ∈ after.roots ↔
    (e ∈ s.roots ∧ e.id ≠ node) ∨
    (e ∈ s.entities ∧ s.ChildOf e.id node ∧ ∀ parent, s.ChildOf e.id parent → parent = node)

section Prune

variable {s : Store} {node id : Id}

theorem Linked.hasEntity_of_doomed (h : s.Linked) {cascade : Bool} (hnode : s.HasEntity node)
    (hid : s.Doomed node cascade id) : s.HasEntity id := by
  rcases hid with rfl | ⟨_, hbelow⟩
  · exact hnode
  · obtain ⟨_, ⟨_, _, htriple⟩, _⟩ := Relation.TransGen.head'_iff.1 hbelow
    exact (h.ends_of_triple htriple).1

/-- The entities that a deletion sets out to delete, in the order in which it finds them. -/
def doomed (s : Store) (node : Id) (cascade : Bool) : List Id :=
  if cascade then s.subtree node else [node]

theorem mem_doomed {cascade : Bool} : id ∈ s.doomed node cascade ↔ s.Doomed node cascade id := by
  cases cascade with
  | false => simp [doomed, Doomed]
  | true =>
    simp [doomed, Doomed, mem_subtree, Relation.reflTransGen_iff_eq_or_transGen, eq_comm]

theorem doomed_nodup (s : Store) (node : Id) (cascade : Bool) : (s.doomed node cascade).Nodup := by
  cases cascade with
  | false => simp [doomed]
  | true => exact s.subtree_nodup node

/-- No deletion of a node that is there fails. -/
theorem Linked.prune_eq_ok (h : s.Linked) (hnode : s.HasEntity node) (cascade : Bool) :
    s.prune node cascade =
      .ok ((s.doomed node cascade).length, s.without (s.doomed node cascade)) := by
  obtain ⟨e, he⟩ := hnode.exists_entity?
  let middle := if cascade then s else s.releaseChildren node
  have hthere : ∀ id ∈ (s.doomed node cascade).reverse, middle.HasEntity id := by
    intro id hid
    have hdoomed := mem_doomed.1 (List.mem_reverse.1 hid)
    cases cascade <;> exact h.hasEntity_of_doomed hnode hdoomed
  have hdelete := deleteAll_eq_ok (List.nodup_reverse.2 (s.doomed_nodup node cascade)) hthere
  have hrest : middle.without (s.doomed node cascade) = s.without (s.doomed node cascade) := by
    cases cascade with
    | false => exact without_releaseChildren s (mem_doomed.2 (.inl rfl))
    | true => rfl
  rw [without_reverse, hrest] at hdelete
  exact bind_eq_ok.2 ⟨e, existing_eq_ok.2 he, bind_eq_ok.2 ⟨_, hdelete, rfl⟩⟩

end Prune
end Store

/-- Deleting a node that is there succeeds, on every graph that a run makes, and takes exactly what
it dooms. -/
theorem pruned_of_reachable {s : Store} (h : Reachable s) {node : Id} (hnode : s.HasEntity node)
    (cascade : Bool) :
    ∃ gone after, s.prune node cascade = .ok (gone.length, after) ∧
      s.Pruned node cascade gone after := by
  have hlinked := h.sound.linked
  refine ⟨s.doomed node cascade, _, hlinked.prune_eq_ok hnode cascade, ?_⟩
  apply Store.Pruned.mk
  · exact s.doomed_nodup node cascade
  · exact fun _ => Store.mem_doomed
  · rfl
  · rintro rfl e
    exact hlinked.mem_roots_without

/-- A node on a cycle, with a child linked to it in both ways and with a shared descendant. -/
theorem pruned_of_cycle :
    let now : Moment := .ofNanoseconds 0
    let s := Store.run .empty [
      (now, .addEntity { name := "node", entityType := "Project" }),
      (now, .addEntity { name := "left", entityType := "Module" }),
      (now, .addEntity { name := "right", entityType := "Module" }),
      (now, .addEntity { name := "shared", entityType := "Note" }),
      (now, .relate 2 1 "part_of"),
      (now, .relate 2 1 "depends_on"),
      (now, .relate 3 1 "part_of"),
      (now, .relate 4 2 "part_of"),
      (now, .relate 4 3 "part_of"),
      (now, .relate 1 4 "depends_on")]
    s.HasEntity 1 ∧ ∃ gone after, s.prune 1 true = .ok (gone.length, after) ∧
      s.Pruned 1 true gone after := by
  intro now s
  have hnode : s.HasEntity 1 := by decide +kernel
  exact ⟨hnode, pruned_of_reachable (Reachable.empty.run _) hnode true⟩

end MemoryGraph
