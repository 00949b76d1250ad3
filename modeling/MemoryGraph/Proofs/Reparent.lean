-- SUMMARY: A move gives a node one parent and touches nothing else; it closes a cycle exactly when the parent is below the node.
import MemoryGraph.Proofs.Lineage
import MemoryGraph.Proofs.Prune
import Mathlib.Data.Prod.Lex
import Mathlib.Data.String.Basic

/-!
# Moving a node

A node that is moved loses the relations to its parents, one by one, and gets a
new one in the last row. All other rows stand as they did, so that the roots are
the old ones without the node. A move does not look at what is below the node:
put under an entity below itself, the node closes a cycle.
-/
namespace MemoryGraph

open Store Text

namespace Store

/-! ## The rows after a move -/

/-- The relations but for those that lead from an entity to its parents. -/
def relationsBeside (s : Store) (node : Id) : List Relation :=
  s.relations.filter fun r => !(r.source = node && r.isUpward)

/-- The row that puts a node under a parent. -/
def parentLink (s : Store) (now : Timestamp) (node parent : Id) : Relation where
  id := s.nextRelation
  source := node
  target := parent
  relationType := usualUpwardType
  createdAt := now

/-- The store with a node under a parent and under no other. -/
def underParent (s : Store) (now : Timestamp) (node parent : Id) : Store :=
  { s with
    relations := s.relationsBeside node ++ [s.parentLink now node parent]
    nextRelation := s.nextRelation + 1 }

/-- What a move asks for: two entities that are there and are not linked so already. -/
structure CanMove (s : Store) (node parent : Id) : Prop where
  apart : node ≠ parent
  child : s.HasEntity node
  top : s.HasEntity parent
  free : (node, parent, usualUpwardType) ∉ s.relations.map Relation.triple

section Rows

variable {s after : Store} {now : Timestamp} {node parent : Id} {r : Relation}

theorem settled_usualUpwardType : Field.relationType.Settled usualUpwardType where
  passes := by decide
  trim_eq := by decide

theorem mem_relationsBeside :
    r ∈ s.relationsBeside node ↔ r ∈ s.relations ∧ ¬ (r.source = node ∧ r.isUpward = true) := by
  simp [relationsBeside, -not_and, not_and_or]

theorem foldl_removeRelation (s : Store) (gone : List Relation) :
    gone.foldl (fun s r => s.removeRelation r.id) s =
      { s with relations := s.relations.filter fun r => r.id ∉ gone.map Relation.id } := by
  induction gone generalizing s with
  | nil => simp
  | cons first rest ih =>
    rw [List.foldl_cons, ih]
    simp only [removeRelation, List.filter_filter, Store.mk.injEq, true_and, and_true]
    apply List.filter_congr
    intro r _
    rw [← Bool.decide_and, decide_eq_decide, List.map_cons, List.mem_cons, not_or]
    exact and_comm

theorem releaseFromParents_eq (hk : s.Keyed) (node : Id) :
    s.releaseFromParents node = { s with relations := s.relationsBeside node } := by
  rw [releaseFromParents, foldl_removeRelation]
  simp only [relationsBeside, Store.mk.injEq, true_and, and_true]
  apply List.filter_congr
  intro r hr
  have hgone : r.id ∈ (s.relationsToParents node).map Relation.id ↔
      r.source = node ∧ r.isUpward = true := by
    constructor
    · intro hid
      obtain ⟨x, hx, hsame⟩ := List.mem_map.1 hid
      obtain ⟨hmem, hkept⟩ := List.mem_filter.1 hx
      obtain rfl := hk.relations.unique hmem hr hsame
      simpa using hkept
    · intro hkept
      exact List.mem_map_of_mem (List.mem_filter.2 ⟨hr, by simpa using hkept⟩)
  simp [hgone]

/-- A node that can be moved is moved. -/
theorem CanMove.reparent_eq_ok (h : s.CanMove node parent) (hk : s.Keyed) (now : Timestamp) :
    s.reparent now node parent =
      .ok (s.parentLink now node parent, s.underParent now node parent) := by
  obtain ⟨child, hchild⟩ := h.child.existing
  obtain ⟨top, htop⟩ := h.top.existing
  have hfree : s.relationBetween? node parent usualUpwardType = none := by
    rw [← Option.not_isSome_iff_eq_none, isSome_relationBetween?_iff]
    exact h.free
  have hreleased : ({ s with relations := s.relationsBeside node } : Store).relationBetween?
      node parent usualUpwardType = none := by
    rw [relationBetween?_eq_none] at hfree ⊢
    exact fun r hr => hfree r (mem_relationsBeside.1 hr).1
  have hlink : (s.releaseFromParents node).appendRelation now node parent usualUpwardType =
      .ok (some (s.parentLink now node parent), s.underParent now node parent) := by
    rw [releaseFromParents_eq hk]
    exact appendRelation_of_free now settled_usualUpwardType h.apart hreleased h.child h.top
  simp only [reparent, guard_eq_ok, bind_eq_ok]
  exact ⟨h.apart, child, hchild, top, htop, by simp [hfree], _, hlink, rfl⟩

/-- A move that succeeds has been possible. -/
theorem canMove_of_ok (h : s.reparent now node parent = .ok (r, after)) : s.CanMove node parent := by
  simp only [reparent, guard_eq_ok, bind_eq_ok] at h
  obtain ⟨hapart, _, hchild, _, htop, hfree, _⟩ := h
  exact
    { apart := hapart
      child := hasEntity_of_entity? (existing_eq_ok.1 hchild)
      top := hasEntity_of_entity? (existing_eq_ok.1 htop)
      free := fun hlinked => hfree (isSome_relationBetween?_iff.2 hlinked) }

theorem reparent_eq_ok_iff (hk : s.Keyed) :
    s.reparent now node parent = .ok (r, after) ↔
      s.CanMove node parent ∧ r = s.parentLink now node parent ∧
        after = s.underParent now node parent := by
  constructor
  · intro h
    have hcan : s.CanMove node parent := canMove_of_ok h
    rw [hcan.reparent_eq_ok hk] at h
    cases h
    exact ⟨hcan, rfl, rfl⟩
  · rintro ⟨hcan, rfl, rfl⟩
    exact hcan.reparent_eq_ok hk now

end Rows

/-! ## The order by name -/

section Order

variable {a b : Entity} {rows : List Entity} {bound : Id}

/-- What entities are listed by: the folded name, and for equal ones the id. -/
def nameKey (e : Entity) : String ×ₗ Id := toLex (foldAscii e.name, e.id)

theorem nameOrder_iff : nameOrder a b = true ↔ nameKey a ≤ nameKey b := by
  simp [nameOrder, nameKey, Prod.Lex.toLex_le_toLex]

theorem pairwise_byName (rows : List Entity) :
    (byName rows).Pairwise fun a b => nameKey a ≤ nameKey b := by
  have hsorted : (byName rows).Pairwise fun a b => nameOrder a b = true := by
    apply List.pairwise_mergeSort
    · intro a b c hab hbc
      rw [nameOrder_iff] at hab hbc ⊢
      exact hab.trans hbc
    · intro a b
      rw [Bool.or_eq_true, nameOrder_iff, nameOrder_iff]
      exact le_total _ _
  exact hsorted.imp nameOrder_iff.1

/-- Some of the entities are listed in the order in which all of them are. -/
theorem filter_byName (h : Ascending Entity.id rows bound) (keep : Entity → Bool) :
    (byName rows).filter keep = byName (rows.filter keep) := by
  have hall : (byName rows).Perm rows := List.mergeSort_perm _ _
  have hsome : (byName (rows.filter keep)).Perm (rows.filter keep) := List.mergeSort_perm _ _
  apply ((hall.filter keep).trans hsome.symm).eq_of_pairwise _
    ((pairwise_byName rows).filter keep) (pairwise_byName _)
  intro a b ha hb hab hba
  have hkey : nameKey a = nameKey b := le_antisymm hab hba
  have hid : a.id = b.id := congrArg (fun key => (ofLex key).2) hkey
  apply h.unique _ _ hid
  · exact hall.subset (List.mem_filter.1 ha).1
  · exact (List.mem_filter.1 (hsome.subset hb)).1

end Order

/-! ## What a move does -/

/-- A node has been moved: it is under its new parent alone, and all else is as it was. -/
structure Moved (s : Store) (node parent : Id) (r : Relation) (after : Store) : Prop where
  link : r.triple = (node, parent, usualUpwardType)
  /-- The id of the new row is above those of all rows of now and before. -/
  newest : ∀ past steps, Reachable past → past.run steps = s → ∀ x ∈ past.relations, x.id < r.id
  only : after.relationsToParents node = [r]
  others : after.relations = s.relationsBeside node ++ [r]
  entities : after.entities = s.entities
  observations : after.observations = s.observations
  roots : after.roots = s.roots.filter fun e => e.id ≠ node

section Move

variable {s : Store} {now : Timestamp} {node parent child top id : Id}

theorem childOf_underParent : (s.underParent now node parent).ChildOf child top ↔
    child ≠ node ∧ s.ChildOf child top ∨ child = node ∧ top = parent := by
  have husual : isUpwardType usualUpwardType = true := by decide
  simp only [childOf_iff, underParent, List.mem_append, List.mem_singleton, mem_relationsBeside]
  constructor
  · rintro ⟨r, ⟨hr, hbeside⟩ | rfl, rfl, rfl, hup⟩
    · exact .inl ⟨fun hnode => hbeside ⟨hnode, hup⟩, r, hr, rfl, rfl, hup⟩
    · exact .inr ⟨rfl, rfl⟩
  · rintro (⟨hne, r, hr, rfl, rfl, hup⟩ | ⟨rfl, rfl⟩)
    · exact ⟨r, .inl ⟨hr, fun hbeside => hne hbeside.1⟩, rfl, rfl, hup⟩
    · exact ⟨_, .inr rfl, rfl, rfl, husual⟩

theorem isRoot_underParent :
    (s.underParent now node parent).isRoot id = (s.isRoot id && decide (id ≠ node)) := by
  rw [Bool.eq_iff_iff, Bool.and_eq_true, decide_eq_true_eq, isRoot_iff, isRoot_iff]
  constructor
  · intro hroot
    have hne : id ≠ node := fun hnode => hroot parent (childOf_underParent.2 (.inr ⟨hnode, rfl⟩))
    exact ⟨fun top hchild => hroot top (childOf_underParent.2 (.inl ⟨hne, hchild⟩)), hne⟩
  · rintro ⟨hroot, hne⟩ top hchild
    obtain ⟨_, hchild⟩ | ⟨hnode, _⟩ := childOf_underParent.1 hchild
    · exact hroot top hchild
    · exact hne hnode

/-- The entities without a parent are listed as before, but for the node. -/
theorem parentless_underParent (hk : s.Keyed) :
    (s.underParent now node parent).parentless = s.parentless.filter fun e => e.id ≠ node := by
  rw [parentless, parentless, filter_byName (hk.entities.filter _), List.filter_filter]
  refine congrArg byName (List.filter_congr fun e _ => ?_)
  rw [isRoot_underParent, Bool.and_comm]

theorem roots_underParent (hk : s.Keyed) :
    (s.underParent now node parent).roots = s.roots.filter fun e => e.id ≠ node := by
  simp only [roots, parentless_underParent hk, List.filter_append, List.filter_filter,
    Bool.and_comm]

theorem relationsToParents_underParent :
    (s.underParent now node parent).relationsToParents node =
      [s.parentLink now node parent] := by
  have husual : isUpwardType usualUpwardType = true := by decide
  have hbeside : (s.relationsBeside node).filter (fun r => r.source = node && r.isUpward) = [] := by
    rw [List.filter_eq_nil_iff]
    intro r hr
    simpa using (mem_relationsBeside.1 hr).2
  rw [relationsToParents, underParent, List.filter_append, hbeside]
  simp [parentLink, Relation.isUpward, husual]

end Move
end Store

/-- A move that succeeds puts the node under its new parent, with a row whose id was never given
before, takes it from all others, and leaves all else in its place. -/
theorem moved_of_reachable {s after : Store} (h : Reachable s) {now : Timestamp} {node parent : Id}
    {r : Relation} (hmove : s.reparent now node parent = .ok (r, after)) :
    s.Moved node parent r after := by
  have hk : s.Keyed := h.keyed
  obtain ⟨_, rfl, rfl⟩ := (reparent_eq_ok_iff hk).1 hmove
  constructor
  case link => rfl
  case newest =>
    rintro past steps hpast rfl x hx
    have hnext := (hpast.keyed.run_writes steps).nextLe.relations
    exact Int.lt_of_lt_of_le (hpast.keyed.relations.lt_bound x hx) hnext
  case only => exact relationsToParents_underParent
  case others => rfl
  case entities => rfl
  case observations => rfl
  case roots => exact roots_underParent hk

/-- A node with parents of both types, one of them the new parent already, with a child of its own
and a lateral relation. -/
theorem moved_from_three_parents :
    let now : Moment := .ofNanoseconds 0
    let s := Store.run .empty [
      (now, .addEntity { name := "old", entityType := "Project" }),
      (now, .addEntity { name := "other", entityType := "Project" }),
      (now, .addEntity { name := "node", entityType := "Module" }),
      (now, .addEntity { name := "new", entityType := "Project" }),
      (now, .addEntity { name := "leaf", entityType := "Note" }),
      (now, .relate 3 1 "part_of"),
      (now, .relate 3 2 "depends_on"),
      (now, .relate 3 4 "depends_on"),
      (now, .relate 5 3 "part_of"),
      (now, .relate 3 5 "mentions")]
    ∃ r after, s.reparent now.text 3 4 = .ok (r, after) ∧ s.Moved 3 4 r after := by
  intro now s
  have hreachable : Reachable s := Reachable.empty.run _
  have hcan : s.CanMove 3 4 := by constructor <;> decide +kernel
  have hmove := hcan.reparent_eq_ok hreachable.keyed now.text
  exact ⟨_, _, hmove, moved_of_reachable hreachable hmove⟩

/-! ## Cycles -/

namespace Store

/-- Every entity is below a root, or is one. -/
def Covered (s : Store) : Prop :=
  ∀ id, s.HasEntity id → ∃ root ∈ s.roots, Relation.ReflTransGen s.ChildOf id root.id

section Cycles

variable {s : Store} {now : Timestamp} {node parent x y : Id}

theorem Acyclic.covered (h : s.Acyclic) (hl : s.Linked) : s.Covered := by
  intro id hid
  apply h.induction hl _ hid
  intro id hid ih
  by_cases hroot : s.isRoot id = true
  · obtain ⟨e, he, rfl⟩ := hid
    exact ⟨e, mem_roots.2 ⟨he, hroot⟩, .refl⟩
  · rw [isRoot_iff] at hroot
    push Not at hroot
    obtain ⟨parent, hchild⟩ := hroot
    obtain ⟨root, hmem, hpath⟩ := ih parent hchild
    exact ⟨root, hmem, .head hchild hpath⟩

/-- What leads to a node leads to it still when the node is moved. -/
theorem transGen_underParent (h : Relation.TransGen s.ChildOf x node) (hne : x ≠ node) :
    Relation.TransGen (s.underParent now node parent).ChildOf x node := by
  induction h using Relation.TransGen.head_induction_on with
  | single hchild => exact .single (childOf_underParent.2 (.inl ⟨hne, hchild⟩))
  | @head a c hchild _ ih =>
    have hfirst : (s.underParent now node parent).ChildOf a c :=
      childOf_underParent.2 (.inl ⟨hne, hchild⟩)
    by_cases hend : c = node
    · exact .single (hend ▸ hfirst)
    · exact .head hfirst (ih hend)

/-- A path after a move was there before, or comes by the node and goes on from its parent. -/
theorem transGen_of_underParent
    (h : Relation.TransGen (s.underParent now node parent).ChildOf x y) :
    Relation.TransGen s.ChildOf x y ∨
      Relation.ReflTransGen s.ChildOf x node ∧ Relation.ReflTransGen s.ChildOf parent y := by
  induction h with
  | single hstep =>
    obtain ⟨_, hchild⟩ | ⟨rfl, rfl⟩ := childOf_underParent.1 hstep
    · exact .inl (.single hchild)
    · exact .inr ⟨.refl, .refl⟩
  | tail _ hstep ih =>
    obtain ⟨_, hchild⟩ | ⟨rfl, rfl⟩ := childOf_underParent.1 hstep
    · obtain hold | ⟨hnode, hparent⟩ := ih
      · exact .inl (hold.tail hchild)
      · exact .inr ⟨hnode, hparent.tail hchild⟩
    · obtain hold | ⟨hnode, _⟩ := ih
      · exact .inr ⟨hold.to_reflTransGen, .refl⟩
      · exact .inr ⟨hnode, .refl⟩

/-- Under a new parent a node closes a cycle exactly when the parent is below it. -/
theorem Acyclic.underParent_iff (h : s.Acyclic) (hne : node ≠ parent) :
    (s.underParent now node parent).Acyclic ↔ ¬ Relation.TransGen s.ChildOf parent node := by
  constructor
  · intro hafter hbelow
    have hlink : (s.underParent now node parent).ChildOf node parent :=
      childOf_underParent.2 (.inr ⟨rfl, rfl⟩)
    exact hafter node (.head hlink (transGen_underParent hbelow hne.symm))
  · intro hbeside id hcycle
    obtain hold | ⟨hnode, hparent⟩ := transGen_of_underParent hcycle
    · exact h id hold
    · obtain hsame | hbelow := Relation.reflTransGen_iff_eq_or_transGen.1 (hparent.trans hnode)
      · exact hne hsame
      · exact hbeside hbelow

/-- Where there are no cycles, a node can be moved under whatever is below it. -/
theorem Acyclic.canMove_of_below (h : s.Acyclic) (hl : s.Linked)
    (hbelow : Relation.TransGen s.ChildOf parent node) : s.CanMove node parent where
  apart := by
    rintro rfl
    exact h node hbelow
  child := by
    obtain ⟨_, _, _, _, htriple⟩ := Relation.TransGen.tail'_iff.1 hbelow
    exact (hl.ends_of_triple htriple).2
  top := by
    obtain ⟨_, ⟨_, _, htriple⟩, _⟩ := Relation.TransGen.head'_iff.1 hbelow
    exact (hl.ends_of_triple htriple).1
  free := by
    intro hlinked
    have husual : isUpwardType usualUpwardType = true := by decide
    exact h node (.head ⟨_, husual, hlinked⟩ hbelow)

theorem CanMove.outcome (h : s.CanMove node parent) (hk : s.Keyed) (now : Moment) :
    (Operation.reparent node parent).outcome now s = s.underParent now.text node parent := by
  simp only [Operation.outcome, Operation.perform, h.reparent_eq_ok hk]
  rfl

theorem outcome_of_not_canMove (h : ¬ s.CanMove node parent) (now : Moment) :
    (Operation.reparent node parent).outcome now s = s := by
  unfold Operation.outcome
  split
  · rename_i after hmove
    simp only [Operation.perform, bind_eq_ok, Prod.exists] at hmove
    obtain ⟨_, _, hmove, _⟩ := hmove
    exact absurd (canMove_of_ok hmove) h
  · rfl

end Cycles
end Store

/-- What a move does to a graph without cycles, whether it succeeds or not: none is closed unless
the new parent is below the node, and then one is. Without cycles all entities are below roots. -/
theorem acyclic_after_move_iff {s : Store} (h : Reachable s) (hacyclic : s.Acyclic) (now : Moment)
    (node parent : Id) :
    let after := (Operation.reparent node parent).outcome now s
    (after.Acyclic ↔ ¬ Relation.TransGen s.ChildOf parent node) ∧
      (after.Acyclic → after.Covered) := by
  intro after
  have hs := h.sound
  refine ⟨?_, fun hafter => hafter.covered (h.step now (.reparent node parent)).sound.linked⟩
  by_cases hcan : s.CanMove node parent
  · have hafter : after = s.underParent now.text node parent := hcan.outcome hs.keyed now
    rw [hafter]
    exact hacyclic.underParent_iff hcan.apart
  · have hafter : after = s := outcome_of_not_canMove hcan now
    have hbeside : ¬ Relation.TransGen s.ChildOf parent node := fun hbelow =>
      hcan (hacyclic.canMove_of_below hs.linked hbelow)
    rw [hafter]
    exact iff_of_true hacyclic hbeside

/-- A node with a child is moved to another tree. -/
theorem acyclic_after_move_aside :
    let now : Moment := .ofNanoseconds 0
    let s := Store.run .empty [
      (now, .addEntity { name := "top", entityType := "Project" }),
      (now, .addEntity { name := "node", entityType := "Module" }),
      (now, .addEntity { name := "leaf", entityType := "Note" }),
      (now, .addEntity { name := "aside", entityType := "Project" }),
      (now, .relate 2 1 "part_of"),
      (now, .relate 3 2 "depends_on")]
    let after := (Operation.reparent 2 4).outcome now s
    Reachable s ∧ s.Acyclic ∧ after.Acyclic ∧ after.Covered := by
  intro now s after
  have hreachable : Reachable s := Reachable.empty.run _
  have hacyclic : s.Acyclic := acyclic_of_older (by decide +kernel)
  obtain ⟨hiff, hcovered⟩ := acyclic_after_move_iff hreachable hacyclic now 2 4
  have hroot : s.isRoot 4 = true := by decide +kernel
  have hbeside : ¬ Relation.TransGen s.ChildOf 4 2 := by
    intro hbelow
    obtain ⟨parent, hchild, _⟩ := Relation.TransGen.head'_iff.1 hbelow
    exact isRoot_iff.1 hroot parent hchild
  have hafter : after.Acyclic := hiff.2 hbeside
  exact ⟨hreachable, hacyclic, hafter, hcovered hafter⟩

/-- The top of a tree is moved under the lowest of its nodes: the three close a cycle, and no root
is left. -/
theorem cycle_of_move_below :
    let now : Moment := .ofNanoseconds 0
    let s := Store.run .empty [
      (now, .addEntity { name := "top", entityType := "Project" }),
      (now, .addEntity { name := "middle", entityType := "Module" }),
      (now, .addEntity { name := "low", entityType := "Note" }),
      (now, .relate 2 1 "part_of"),
      (now, .relate 3 2 "depends_on")]
    let after := (Operation.reparent 1 3).outcome now s
    Reachable s ∧ s.Acyclic ∧ ¬ after.Acyclic ∧ ¬ after.Covered := by
  intro now s after
  refine ⟨Reachable.empty.run _, acyclic_of_older (by decide +kernel), ?_, ?_⟩
  · intro hacyclic
    have htop : after.ChildOf 1 3 := childOf_iff.2 (by decide +kernel)
    have hlow : after.ChildOf 3 2 := childOf_iff.2 (by decide +kernel)
    have hmiddle : after.ChildOf 2 1 := childOf_iff.2 (by decide +kernel)
    exact hacyclic 1 (.head htop (.head hlow (.single hmiddle)))
  · intro hcovered
    obtain ⟨root, hroot, _⟩ := hcovered 1 (by decide +kernel)
    have hnone : after.roots = [] := by decide +kernel
    rw [hnone] at hroot
    cases hroot

end MemoryGraph
