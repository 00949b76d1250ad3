-- SUMMARY: The tree of an exported entity has one node for each path of links that comes to no entity twice.
import MemoryGraph.Proofs.Branch
import Mathlib.Data.List.Perm.Subperm
import Mathlib.Data.Set.Function

/-!
# Trees of paths

An export follows links downwards and forgets, beside a branch, what it has seen
on the others. The nodes of the tree of an entity are therefore the paths of
links that start there and come to no entity twice: each of them leads to one
place in the tree, and each place is that of one path. Whatever links lead to at
all, such a path leads to.
-/
namespace MemoryGraph

/-! ## Places in a tree -/

/-- The node at a place, which tells the number of a child for each step down. -/
def TreeNode.nodeAt? : List Nat → TreeNode → Option TreeNode
  | [], node => some node
  | i :: rest, node => node.children[i]?.bind (TreeNode.nodeAt? rest)

/-! ## Relations as links -/

namespace Relation

/-- The end of a relation further up in a tree: the parent, or the source of a lateral relation. -/
def upper (r : Relation) : Id := if r.isUpward then r.target else r.source

/-- The end of a relation further down in a tree: the child, or the target of a lateral relation. -/
def lower (r : Relation) : Id := if r.isUpward then r.source else r.target

/-- The order of the children in a tree: those linked upwards come before the lateral ones, and
either of them in the order of their ids. -/
def Precedes (a b : Relation) : Prop :=
  (a.isUpward = true ∧ b.isUpward = false) ∨ (a.isUpward = b.isUpward ∧ a.id < b.id)

theorem Precedes.ne {a b : Relation} (h : a.Precedes b) : a ≠ b := by
  rintro rfl
  rcases h with ⟨hup, hlateral⟩ | ⟨_, hlt⟩
  · simp [hup] at hlateral
  · exact absurd hlt (Int.lt_irrefl _)

end Relation

namespace Store

/-! ## Paths of links -/

/-- Each relation of a path leads down from where the one before it has led. -/
def WalksDown (s : Store) : Id → List Relation → Prop
  | _, [] => True
  | id, r :: rest => r ∈ s.relations ∧ r.upper = id ∧ s.WalksDown r.lower rest

/-- Where a path ends. -/
def tip : Id → List Relation → Id
  | id, [] => id
  | _, r :: rest => tip r.lower rest

/-- A path of links from an entity that comes to no entity twice. -/
structure SimplePath (s : Store) (root : Id) (path : List Relation) : Prop where
  walks : s.WalksDown root path
  nodup : (root :: path.map Relation.lower).Nodup

/-- A link leads from one entity down to the other. -/
def LeadsDown (s : Store) (above below : Id) : Prop :=
  ∃ r ∈ s.relations, r.upper = above ∧ r.lower = below

/-! ## What a tree of paths is -/

/-- The relations by which a path goes on, in the order of the children in a tree. -/
structure GoesOn (s : Store) (root : Id) (path ways : List Relation) : Prop where
  order : ways.Pairwise Relation.Precedes
  mem : ∀ r, r ∈ ways ↔ s.SimplePath root (path ++ [r])

/-- A node stands for a path: it portrays the entity at the tip, with the observations in the order
of their ids, and is tagged with the type of the last relation; the children stand, in their order,
for the paths that go on by one relation. -/
structure Shows (s : Store) (root : Id) (place : List Relation → List Nat) (path : List Relation)
    (node : TreeNode) : Prop where
  entity : ∃ e ∈ s.entities, e.id = tip root path ∧ s.Portrays node e
  observations : (s.observationsOf (tip root path)).Pairwise fun a b => a.id < b.id
  relationType : node.relationType = path.getLast?.map Relation.relationType
  children : ∃ ways, s.GoesOn root path ways ∧ node.children.length = ways.length ∧
    ∀ i r, ways[i]? = some r → place (path ++ [r]) = place path ++ [i]

/-- A tree has a place for each path from an entity, and its nodes show these paths. -/
structure PathTree (s : Store) (root : Id) (tree : TreeNode) (place : List Relation → List Nat) :
    Prop where
  bijective : Set.BijOn place {path | s.SimplePath root path}
    {position | (tree.nodeAt? position).isSome}
  shows : ∀ path, s.SimplePath root path →
    ∃ node, tree.nodeAt? (place path) = some node ∧ s.Shows root place path node
  /-- What the links lead to occurs in the tree, and nothing else. -/
  occurs : ∀ e ∈ s.entities, (∃ position node, tree.nodeAt? position = some node ∧
    s.Portrays node e) ↔ Relation.ReflTransGen s.LeadsDown root e.id
  /-- A branch has no more nodes than there are entities. -/
  depth : ∀ position, (tree.nodeAt? position).isSome → position.length < s.entities.length

section Ways

variable {s : Store} {branch : List Id} {id : Id} {r : Relation} {path : List Relation}

/-! ## The ways down -/

/-- The relations that lead down from an entity, in the order of the links below it. -/
def relationsBelow (s : Store) (id : Id) : List Relation :=
  s.relationsFromChildren id ++ s.relationsAside id

theorem mem_relationsBelow : r ∈ s.relationsBelow id ↔ r ∈ s.relations ∧ r.upper = id := by
  cases hup : r.isUpward <;>
    simp [relationsBelow, relationsFromChildren, relationsAside, Relation.upper, hup]

theorem links_eq_map (s : Store) (id : Id) :
    s.links id = (s.relationsBelow id).map fun r => ⟨r.lower, r.relationType⟩ := by
  rw [links, relationsBelow, List.map_append]
  congr 1
  all_goals
    apply List.map_congr_left
    intro r hr
    have hside := (List.mem_filter.1 hr).2
    simp_all [Relation.lower]

theorem Keyed.relationsBelow_ordered (h : s.Keyed) (id : Id) :
    (s.relationsBelow id).Pairwise Relation.Precedes := by
  have hside : ∀ (keep : Relation → Bool) (up : Bool), (∀ r, keep r = true → r.isUpward = up) →
      (s.relations.filter keep).Pairwise Relation.Precedes := by
    intro keep up hkeep
    apply (h.relations.pairwise.filter keep).imp_of_mem
    intro a b ha hb hlt
    have ha := hkeep a (List.mem_filter.1 ha).2
    have hb := hkeep b (List.mem_filter.1 hb).2
    exact .inr ⟨ha.trans hb.symm, hlt⟩
  apply List.pairwise_append.2 ⟨hside _ true (by simp), hside _ false (by simp), ?_⟩
  intro a ha b hb
  have ha : a.target = id ∧ a.isUpward = true := by simpa using (List.mem_filter.1 ha).2
  have hb : b.source = id ∧ b.isUpward = false := by simpa using (List.mem_filter.1 hb).2
  exact .inl ⟨ha.2, hb.2⟩

/-- The relations by which a tree goes on below an entity at the end of a branch. -/
def waysDown (s : Store) (branch : List Id) (id : Id) : List Relation :=
  (s.relationsBelow id).filter fun r => !branch.contains r.lower

theorem mem_waysDown :
    r ∈ s.waysDown branch id ↔ r ∈ s.relations ∧ r.upper = id ∧ r.lower ∉ branch := by
  simp [waysDown, mem_relationsBelow, and_assoc]

theorem Keyed.waysDown_ordered (h : s.Keyed) (branch : List Id) (id : Id) :
    (s.waysDown branch id).Pairwise Relation.Precedes :=
  (h.relationsBelow_ordered id).filter _

theorem Keyed.waysDown_nodup (h : s.Keyed) (branch : List Id) (id : Id) :
    (s.waysDown branch id).Nodup :=
  (h.waysDown_ordered branch id).imp Relation.Precedes.ne

/-! ## Paths off a branch -/

/-- A path goes on from the end of a branch and does not come back to it. -/
def StepsDown (s : Store) : List Id → Id → List Relation → Prop
  | _, _, [] => True
  | branch, id, r :: rest => r ∈ s.waysDown branch id ∧ s.StepsDown (r.lower :: branch) r.lower rest

/-- The branch at whose end a path ends. -/
def branchTo (branch : List Id) (path : List Relation) : List Id :=
  (path.map Relation.lower).reverse ++ branch

theorem branchTo_cons (branch : List Id) (r : Relation) (rest : List Relation) :
    branchTo branch (r :: rest) = branchTo (r.lower :: branch) rest := by
  simp [branchTo]

theorem stepsDown_iff :
    s.StepsDown branch id path ↔
      s.WalksDown id path ∧ (path.map Relation.lower).Nodup ∧ ∀ r ∈ path, r.lower ∉ branch := by
  induction path generalizing branch id with
  | nil => simp [StepsDown, WalksDown]
  | cons r rest ih => grind [StepsDown, WalksDown, mem_waysDown]

theorem simplePath_iff {root : Id} : s.SimplePath root path ↔ s.StepsDown [root] root path := by
  rw [stepsDown_iff]
  constructor
  · intro h
    obtain ⟨hoff, hnodup⟩ := List.nodup_cons.1 h.nodup
    exact ⟨h.walks, hnodup, by simpa using hoff⟩
  · rintro ⟨hwalks, hnodup, hoff⟩
    exact ⟨hwalks, List.nodup_cons.2 ⟨by simpa using hoff, hnodup⟩⟩

theorem stepsDown_concat :
    s.StepsDown branch id (path ++ [r]) ↔
      s.StepsDown branch id path ∧ r ∈ s.waysDown (branchTo branch path) (tip id path) := by
  induction path generalizing branch id with
  | nil => simp [StepsDown, branchTo, tip]
  | cons first rest ih => simp [StepsDown, branchTo_cons, tip, ih, and_assoc]

theorem tip_concat (id : Id) (path : List Relation) (r : Relation) :
    tip id (path ++ [r]) = r.lower := by
  induction path generalizing id with
  | nil => rfl
  | cons first rest ih => exact ih first.lower

/-- A path can stop earlier. -/
theorem StepsDown.front {rest : List Relation} (h : s.StepsDown branch id (path ++ rest)) :
    s.StepsDown branch id path := by
  induction path generalizing branch id with
  | nil => trivial
  | cons first others ih => exact ⟨h.1, ih h.2⟩

/-- A path that comes by an entity can stop there. -/
theorem exists_front {x : Id} (hx : x ∈ id :: path.map Relation.lower) :
    ∃ front rest, path = front ++ rest ∧ tip id front = x := by
  induction path generalizing id with
  | nil => exact ⟨[], [], rfl, (List.mem_singleton.1 hx).symm⟩
  | cons r others ih =>
    rcases List.mem_cons.1 hx with rfl | hx
    · exact ⟨[], _, rfl, rfl⟩
    · obtain ⟨front, rest, rfl, htip⟩ := ih hx
      exact ⟨r :: front, rest, rfl, htip⟩

/-- What the links lead to, a simple path leads to. -/
theorem exists_simplePath {root : Id} (h : Relation.ReflTransGen s.LeadsDown root id) :
    ∃ path, s.SimplePath root path ∧ tip root path = id := by
  induction h with
  | refl => exact ⟨[], simplePath_iff.2 trivial, rfl⟩
  | tail _ hstep ih =>
    obtain ⟨path, hpath, rfl⟩ := ih
    obtain ⟨r, hr, hupper, rfl⟩ := hstep
    by_cases hback : r.lower ∈ root :: path.map Relation.lower
    · obtain ⟨front, rest, rfl, htip⟩ := exists_front hback
      exact ⟨front, simplePath_iff.2 (simplePath_iff.1 hpath).front, htip⟩
    · have hoff : r.lower ∉ branchTo [root] path := by
        simpa [branchTo, and_comm] using hback
      have hlonger : s.StepsDown [root] root (path ++ [r]) :=
        stepsDown_concat.2 ⟨simplePath_iff.1 hpath, mem_waysDown.2 ⟨hr, hupper, hoff⟩⟩
      exact ⟨path ++ [r], simplePath_iff.2 hlonger, tip_concat root path r⟩

theorem Linked.hasEntity_lower (h : s.Linked) (hr : r ∈ s.relations) : s.HasEntity r.lower := by
  unfold Relation.lower
  split
  · exact h.source r hr
  · exact h.target r hr

theorem WalksDown.mem_relations (h : s.WalksDown id path) : ∀ r ∈ path, r ∈ s.relations := by
  induction path generalizing id with
  | nil => simp
  | cons first rest ih =>
    obtain ⟨hfirst, _, hrest⟩ := h
    simpa [hfirst] using ih hrest

theorem WalksDown.leadsDown (h : s.WalksDown id path) :
    Relation.ReflTransGen s.LeadsDown id (tip id path) := by
  induction path generalizing id with
  | nil => exact .refl
  | cons r rest ih =>
    obtain ⟨hr, hupper, hrest⟩ := h
    exact .head ⟨r, hr, hupper, rfl⟩ (ih hrest)

/-- A path that comes to no entity twice is shorter than the number of entities. -/
theorem SimplePath.length_lt {root : Id} (h : s.SimplePath root path) (hl : s.Linked)
    (hroot : s.HasEntity root) : path.length < s.entities.length := by
  have hsub : root :: path.map Relation.lower ⊆ s.entities.map Entity.id := by
    intro id hid
    rcases List.mem_cons.1 hid with rfl | hid
    · simpa [HasEntity] using hroot
    · obtain ⟨r, hr, rfl⟩ := List.mem_map.1 hid
      simpa [HasEntity] using hl.hasEntity_lower (h.walks.mem_relations r hr)
  simpa [Nat.succ_le_iff] using (h.nodup.subperm hsub).length_le

end Ways

/-! ## Exported trees -/

section Exported

variable {s : Store} {branch : List Id} {e : Entity} {type : Option String}
  {path : List Relation} {r : Relation}

/-- Elements that are kept go to what they stand for, one by one, when the others go to nothing. -/
theorem forall₂_filterMap {α β : Type} {R : α → β → Prop} {keep : α → Bool} {f : α → Option β}
    {as : List α} (hkeep : ∀ a ∈ as, keep a = true → ∃ b, f a = some b ∧ R a b)
    (hdrop : ∀ a ∈ as, keep a = false → f a = none) :
    List.Forall₂ R (as.filter keep) (as.filterMap f) := by
  induction as with
  | nil => exact .nil
  | cons a as ih =>
    simp only [List.forall_mem_cons] at hkeep hdrop
    have hrest := ih hkeep.2 hdrop.2
    cases ha : keep a with
    | false => simpa [ha, hdrop.1 ha] using hrest
    | true =>
      obtain ⟨b, hb, hab⟩ := hkeep.1 ha
      simpa [ha, hb] using ⟨hab, hrest⟩

/-- The children of a node are the nodes of the ways down from it. -/
theorem Linked.children_exportNode (h : s.Linked) :
    List.Forall₂ (fun r child => ∃ c, s.entity? r.lower = some c ∧
        child = s.exportNode c (some r.relationType) (r.lower :: branch))
      (s.waysDown branch e.id) (s.exportNode e type branch).children := by
  rw [exportNode]
  simp only [links_eq_map, List.filterMap_map]
  apply forall₂_filterMap
  · intro r hr hoff
    have hthere := h.hasEntity_lower (mem_relationsBelow.1 hr).1
    obtain ⟨c, hc⟩ := hthere.exists_entity?
    refine ⟨_, ?_, c, hc, rfl⟩
    simp only [Bool.not_eq_true'] at hoff
    simp only [Function.comp_apply, hoff, dite_true]
    split <;> simp_all
  · intro r _ hon
    have hon : r.lower ∈ branch := by simpa using hon
    simp [hon]

theorem Linked.length_children (h : s.Linked) :
    (s.exportNode e type branch).children.length = (s.waysDown branch e.id).length :=
  h.children_exportNode.length_eq.symm

theorem Linked.child_of_way (h : s.Linked) (type : Option String) {i : Nat}
    (hway : (s.waysDown branch e.id)[i]? = some r) :
    ∃ c, s.entity? r.lower = some c ∧ (s.exportNode e type branch).children[i]? =
      some (s.exportNode c (some r.relationType) (r.lower :: branch)) := by
  obtain ⟨hi, rfl⟩ := List.getElem?_eq_some_iff.1 hway
  have hi' : i < (s.exportNode e type branch).children.length := h.length_children ▸ hi
  obtain ⟨c, hc, hchild⟩ := h.children_exportNode.get hi hi'
  exact ⟨c, hc, List.getElem?_eq_some_iff.2 ⟨hi', hchild⟩⟩

/-- The place of a path from the end of a branch, step by step the number of the way it takes. -/
def placeFrom (s : Store) : List Id → Id → List Relation → List Nat
  | _, _, [] => []
  | branch, id, r :: rest =>
    (s.waysDown branch id).idxOf r :: s.placeFrom (r.lower :: branch) r.lower rest

theorem placeFrom_concat (s : Store) (branch : List Id) (id : Id) (path : List Relation)
    (r : Relation) :
    s.placeFrom branch id (path ++ [r]) =
      s.placeFrom branch id path ++ [(s.waysDown (branchTo branch path) (tip id path)).idxOf r] := by
  induction path generalizing branch id with
  | nil => simp [placeFrom, branchTo, tip]
  | cons first rest ih => simp [placeFrom, branchTo_cons, tip, ih]

theorem length_placeFrom (s : Store) (branch : List Id) (id : Id) (path : List Relation) :
    (s.placeFrom branch id path).length = path.length := by
  induction path generalizing branch id with
  | nil => rfl
  | cons r rest ih => simp [placeFrom, ih]

/-- Different paths have different places. -/
theorem StepsDown.eq_of_place {id : Id} {other : List Relation} (h : s.StepsDown branch id path)
    (hother : s.StepsDown branch id other)
    (hplace : s.placeFrom branch id path = s.placeFrom branch id other) : path = other := by
  induction path generalizing branch id other with
  | nil =>
    cases other with
    | nil => rfl
    | cons => cases hplace
  | cons r rest ih =>
    cases other with
    | nil => cases hplace
    | cons r' rest' =>
      obtain ⟨hr, hrest⟩ := h
      obtain ⟨hr', hrest'⟩ := hother
      simp only [placeFrom, List.cons.injEq] at hplace
      obtain ⟨hindex, hplace⟩ := hplace
      obtain rfl := (List.idxOf_inj hr).1 hindex
      rw [ih hrest hrest' hplace]

/-- At the place of a path stands the node of its tip. -/
theorem StepsDown.nodeAt? (type : Option String) (hk : s.Keyed) (hl : s.Linked)
    (he : e ∈ s.entities) (h : s.StepsDown branch e.id path) :
    ∃ x ∈ s.entities, x.id = tip e.id path ∧
      (s.exportNode e type branch).nodeAt? (s.placeFrom branch e.id path) =
        some (s.exportNode x ((path.getLast?.map Relation.relationType).or type)
          (branchTo branch path)) := by
  induction path generalizing e type branch with
  | nil => exact ⟨e, he, rfl, by simp [placeFrom, TreeNode.nodeAt?, branchTo]⟩
  | cons r rest ih =>
    obtain ⟨hway, hrest⟩ := h
    obtain ⟨c, hc, hchild⟩ := hl.child_of_way type (List.getElem?_idxOf hway)
    obtain ⟨hmem, hid⟩ := hk.entity?_eq_some.1 hc
    rw [← hid] at hrest
    obtain ⟨x, hx, htip, hnode⟩ := ih (some r.relationType) hmem hrest
    refine ⟨x, hx, by simpa [tip, hid] using htip, ?_⟩
    simp only [placeFrom, TreeNode.nodeAt?, hchild, Option.bind_some]
    rw [hid] at hnode
    rw [hnode, branchTo_cons]
    cases hlast : rest.getLast? <;> simp [List.getLast?_cons, hlast]

/-- Every place is that of a path. -/
theorem exists_path (hk : s.Keyed) (hl : s.Linked) {position : List Nat}
    (h : ((s.exportNode e type branch).nodeAt? position).isSome) :
    ∃ path, s.StepsDown branch e.id path ∧ s.placeFrom branch e.id path = position := by
  induction position generalizing e type branch with
  | nil => exact ⟨[], trivial, rfl⟩
  | cons i below ih =>
    obtain ⟨node, hnode⟩ := Option.isSome_iff_exists.1 h
    obtain ⟨child, hchild, hbelow⟩ := Option.bind_eq_some_iff.1 hnode
    obtain ⟨hi, _⟩ := List.getElem?_eq_some_iff.1 hchild
    have hlt : i < (s.waysDown branch e.id).length := hl.length_children ▸ hi
    obtain ⟨c, hc, hchild'⟩ := hl.child_of_way type (List.getElem?_eq_getElem hlt)
    obtain ⟨_, hid⟩ := hk.entity?_eq_some.1 hc
    obtain rfl := Option.some.inj (hchild.symm.trans hchild')
    obtain ⟨path, hpath, hplace⟩ := ih (Option.isSome_iff_exists.2 ⟨node, hbelow⟩)
    rw [hid] at hpath hplace
    refine ⟨_ :: path, ⟨List.getElem_mem hlt, hpath⟩, ?_⟩
    rw [placeFrom, hplace, (hk.waysDown_nodup branch e.id).idxOf_getElem i hlt]

end Exported

/-! ## The tree of an entity -/

section Tree

variable {s : Store} {e : Entity}

theorem bijOn_placeFrom (hk : s.Keyed) (hl : s.Linked) (he : e ∈ s.entities) :
    Set.BijOn (s.placeFrom [e.id] e.id) {path | s.SimplePath e.id path}
      {position | ((s.exportNode e none [e.id]).nodeAt? position).isSome} := by
  refine ⟨?_, ?_, ?_⟩
  · intro path hpath
    obtain ⟨x, _, _, hnode⟩ := (simplePath_iff.1 hpath).nodeAt? none hk hl he
    exact Option.isSome_iff_exists.2 ⟨_, hnode⟩
  · intro path hpath other hother hplace
    exact (simplePath_iff.1 hpath).eq_of_place (simplePath_iff.1 hother) hplace
  · intro position hposition
    obtain ⟨path, hpath, hplace⟩ := exists_path hk hl hposition
    exact ⟨path, simplePath_iff.2 hpath, hplace⟩

/-- The ways down from the tip of a path are the relations by which it goes on. -/
theorem SimplePath.goesOn {root : Id} {path : List Relation} (h : s.SimplePath root path)
    (hk : s.Keyed) : s.GoesOn root path (s.waysDown (branchTo [root] path) (tip root path)) where
  order := hk.waysDown_ordered _ _
  mem r := by simp [simplePath_iff, stepsDown_concat, simplePath_iff.1 h]

theorem exists_shows (hk : s.Keyed) (hl : s.Linked) (he : e ∈ s.entities) {path : List Relation}
    (h : s.SimplePath e.id path) :
    ∃ node, (s.exportNode e none [e.id]).nodeAt? (s.placeFrom [e.id] e.id path) = some node ∧
      s.Shows e.id (s.placeFrom [e.id] e.id) path node := by
  obtain ⟨x, hx, htip, hnode⟩ := (simplePath_iff.1 h).nodeAt? none hk hl he
  refine ⟨_, hnode, ?_⟩
  constructor
  · exact ⟨x, hx, htip, exportNode_portrays⟩
  · exact hk.observations.pairwise.filter _
  · simp [exportNode_relationType]
  · refine ⟨_, h.goesOn hk, ?_, ?_⟩
    · rw [← htip]
      exact hl.length_children
    · intro i r hway
      obtain ⟨hi, rfl⟩ := List.getElem?_eq_some_iff.1 hway
      rw [placeFrom_concat, (hk.waysDown_nodup _ _).idxOf_getElem i hi]

theorem occurs_iff (hs : s.Sound) (he : e ∈ s.entities) {x : Entity} (hx : x ∈ s.entities) :
    (∃ position node, (s.exportNode e none [e.id]).nodeAt? position = some node ∧
      s.Portrays node x) ↔ Relation.ReflTransGen s.LeadsDown e.id x.id := by
  constructor
  · rintro ⟨position, node, hnode, hportrays⟩
    obtain ⟨path, hpath, rfl⟩ :=
      exists_path hs.keyed hs.linked (Option.isSome_iff_exists.2 ⟨node, hnode⟩)
    obtain ⟨y, hy, htip, hnode'⟩ := hpath.nodeAt? none hs.keyed hs.linked he
    obtain rfl := Option.some.inj (hnode.symm.trans hnode')
    have hname : x.name = y.name := hportrays.name.symm.trans exportNode_portrays.name
    obtain rfl := List.inj_on_of_nodup_map hs.named hx hy hname
    rw [htip]
    exact (stepsDown_iff.1 hpath).1.leadsDown
  · intro hleads
    obtain ⟨path, hpath, htip⟩ := exists_simplePath hleads
    obtain ⟨y, hy, htip', hnode⟩ :=
      (simplePath_iff.1 hpath).nodeAt? none hs.keyed hs.linked he
    obtain rfl := hs.keyed.entities.unique hy hx (htip'.trans htip)
    exact ⟨_, _, hnode, exportNode_portrays⟩

theorem pathTree_exportNode (hs : s.Sound) (he : e ∈ s.entities) :
    s.PathTree e.id (s.exportNode e none [e.id]) (s.placeFrom [e.id] e.id) where
  bijective := bijOn_placeFrom hs.keyed hs.linked he
  shows _ h := exists_shows hs.keyed hs.linked he h
  occurs _ hx := occurs_iff hs he hx
  depth position h := by
    obtain ⟨path, hpath, rfl⟩ := exists_path hs.keyed hs.linked h
    rw [length_placeFrom]
    exact (simplePath_iff.2 hpath).length_lt hs.linked ⟨e, he, rfl⟩

end Tree
end Store

/-- Exporting entities of a store that a run makes gives one tree for each of them that is there, in
the order in which they are asked for, and each is the tree of the paths of links from there that
come to no entity twice. -/
theorem path_trees_of_export {s : Store} (h : Reachable s) (exportedAt : Timestamp)
    (ids : List Id) :
    List.Forall₂ (fun root tree => ∃ place, s.PathTree root tree place)
      (ids.filter fun id => s.HasEntity id) (s.exportTrees exportedAt ids).roots := by
  apply Store.forall₂_filterMap
  · intro id _ hthere
    obtain ⟨e, he, rfl⟩ := of_decide_eq_true hthere
    have hfind : s.entity? e.id = some e := h.keyed.entity?_eq_some.2 ⟨he, rfl⟩
    exact ⟨_, by simp [hfind], _, Store.pathTree_exportNode h.sound he⟩
  · intro id _ hmissing
    have hnone := Store.isNone_entity?_iff.2 (of_decide_eq_false hmissing)
    simpa using hnone

/-- Two entities that stand above each other, linked twice, with one that both a child and a lateral
relation lead to. -/
theorem path_trees_of_cycle :
    let now : Moment := .ofNanoseconds 0
    let s := Store.run .empty [
      (now, .addEntity { name := "upper", entityType := "Project" }),
      (now, .addEntity { name := "lower", entityType := "Module" }),
      (now, .addEntity { name := "aside", entityType := "Note", observations := ["seen"] }),
      (now, .relate 2 1 "part_of"),
      (now, .relate 2 1 "depends_on"),
      (now, .relate 1 2 "part_of"),
      (now, .relate 3 2 "part_of"),
      (now, .relate 1 3 "mentions")]
    List.Forall₂ (fun root tree => ∃ place, s.PathTree root tree place)
      ([2, 9, 1].filter fun id => s.HasEntity id) (s.exportTrees now.text [2, 9, 1]).roots :=
  path_trees_of_export (Reachable.empty.run _) _ _

end MemoryGraph
