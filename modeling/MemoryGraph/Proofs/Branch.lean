-- SUMMARY: The branches along which an export walks, and what its trees tell of the store.
import MemoryGraph.Proofs.Rebuild

/-!
# Branches of an export

An export walks from each of its entities along the links of the store and stops
before it comes to an entity a second time on one branch. The nodes of its trees
are the tips of these branches, and the links in its trees are those that a
branch follows.
-/
namespace MemoryGraph.Store

/-- The branches of the trees of some entities, each from its tip up to its root. -/
inductive Branch (s : Store) (ids : List Id) : List Id → Prop where
  | root {id : Id} (hid : id ∈ ids) (hthere : s.HasEntity id) : Branch s ids [id]
  | grow {id : Id} {above : List Id} {link : Link} (h : Branch s ids (id :: above))
      (hlink : link ∈ s.links id) (hoff : link.target ∉ id :: above)
      (hthere : s.HasEntity link.target) : Branch s ids (link.target :: id :: above)

/-- A branch comes to an entity and goes on along a link of it. -/
def Follows (s : Store) (ids : List Id) (id : Id) (link : Link) : Prop :=
  ∃ above, s.Branch ids (id :: above) ∧ link ∈ s.links id ∧ link.target ∉ id :: above ∧
    s.HasEntity link.target

section

variable {s : Store} {ids branch above : List Id} {e : Entity} {relationType : Option String}

theorem Branch.hasEntity {id : Id} (h : s.Branch ids (id :: above)) : s.HasEntity id := by
  cases h with
  | root hid hthere => exact hthere
  | grow h hlink hoff hthere => exact hthere

theorem mem_links {id target : Id} {type : String} :
    (⟨target, type⟩ : Link) ∈ s.links id ↔
      (isUpwardType type = true ∧ (target, id, type) ∈ s.relations.map Relation.triple) ∨
      (isUpwardType type = false ∧ (id, target, type) ∈ s.relations.map Relation.triple) := by
  simp only [links, List.mem_append, List.mem_map, relationsFromChildren, relationsAside,
    List.mem_filter, Relation.isUpward, Relation.triple, Link.mk.injEq, Prod.mk.injEq,
    Bool.and_eq_true, decide_eq_true_eq, Bool.not_eq_true']
  constructor
  · rintro (⟨r, ⟨hr, rfl, hup⟩, rfl, rfl⟩ | ⟨r, ⟨hr, rfl, hup⟩, rfl, rfl⟩)
    · exact .inl ⟨hup, r, hr, rfl, rfl, rfl⟩
    · exact .inr ⟨hup, r, hr, rfl, rfl, rfl⟩
  · rintro (⟨hup, r, hr, rfl, rfl, rfl⟩ | ⟨hup, r, hr, rfl, rfl, rfl⟩)
    · exact .inl ⟨r, ⟨hr, rfl, hup⟩, rfl, rfl⟩
    · exact .inr ⟨r, ⟨hr, rfl, hup⟩, rfl, rfl⟩

theorem Settled.link (h : s.Settled) {id : Id} {link : Link} (hlink : link ∈ s.links id) :
    Field.relationType.Settled link.relationType := by
  obtain ⟨target, type⟩ := link
  rcases mem_links.1 hlink with ⟨_, htriple⟩ | ⟨_, htriple⟩ <;>
    obtain ⟨r, hr, _, _, rfl⟩ := mem_triples.1 htriple <;>
    exact h.relations r hr

/-! ## Nodes of an export -/

theorem exportNode_portrays : s.Portrays (s.exportNode e relationType branch) e := by
  constructor <;> rw [exportNode]

theorem exportNode_relationType :
    (s.exportNode e relationType branch).relationType = relationType := by
  rw [exportNode]

theorem mem_children_exportNode {child : TreeNode} :
    child ∈ (s.exportNode e relationType branch).children ↔
      ∃ link ∈ s.links e.id, link.target ∉ branch ∧ ∃ x, s.entity? link.target = some x ∧
        child = s.exportNode x (some link.relationType) (link.target :: branch) := by
  rw [exportNode]
  simp only [List.mem_filterMap]
  refine exists_congr fun link => and_congr_right fun _ => ?_
  constructor
  · intro h
    split at h
    · rename_i hoff
      split at h
      · cases h
      · rename_i x hx
        refine ⟨by simpa using hoff, x, hx, (Option.some.inj h).symm⟩
    · cases h
  · rintro ⟨hoff, x, hx, rfl⟩
    rw [dif_pos (by simpa using hoff)]
    split
    · rename_i hnone
      rw [hx] at hnone
      cases hnone
    · rename_i y hy
      rw [hx] at hy
      cases hy
      rfl

/-- Where a node of an export stands: it is the tip of a branch, and below another node it hangs by
a link that a branch follows. -/
structure Placed (s : Store) (ids : List Id) (above : Option String) (node : TreeNode) : Prop where
  tip : ∃ e ∈ s.entities, ∃ relationType up, s.Branch ids (e.id :: up) ∧
    node = s.exportNode e relationType (e.id :: up)
  link : ∀ name, above = some name → ∃ p ∈ s.entities, ∃ c ∈ s.entities, ∃ type,
    p.name = name ∧ c.name = node.name ∧ node.relationType = some type ∧
    s.Follows ids p.id ⟨c.id, type⟩

/-- Every node of an export stands on a branch. -/
theorem placed_of_within (hk : s.Keyed) {exportedAt : Timestamp} {top node : TreeNode}
    {q : Option String} (htop : top ∈ (s.exportTrees exportedAt ids).roots)
    (h : top.Within none q node) : s.Placed ids q node := by
  induction h with
  | here =>
    obtain ⟨id, hid, hmap⟩ := List.mem_filterMap.1 htop
    obtain ⟨e, he, rfl⟩ := Option.map_eq_some_iff.1 hmap
    obtain ⟨hmem, rfl⟩ := hk.entity?_eq_some.1 he
    exact ⟨⟨e, hmem, none, [], .root hid ⟨e, hmem, rfl⟩, rfl⟩, fun _ h => by cases h⟩
  | deeper _ hchild ih =>
    obtain ⟨p, hp, relationType, up, hbranch, rfl⟩ := ih.tip
    obtain ⟨⟨target, type⟩, hlink, hoff, c, hc, rfl⟩ := mem_children_exportNode.1 hchild
    obtain ⟨hmem, rfl⟩ := hk.entity?_eq_some.1 hc
    have hthere : s.HasEntity c.id := ⟨c, hmem, rfl⟩
    refine ⟨⟨c, hmem, some type, p.id :: up, hbranch.grow hlink hoff hthere, rfl⟩, ?_⟩
    intro name hname
    rw [exportNode_portrays.name] at hname
    exact ⟨p, hp, c, hmem, type, Option.some.inj hname, exportNode_portrays.name.symm,
      exportNode_relationType, up, hbranch, hlink, hoff, hthere⟩

/-- The tip of every branch is a node of the export. -/
theorem within_of_branch (hk : s.Keyed) (exportedAt : Timestamp) (h : s.Branch ids branch) :
    ∀ e ∈ s.entities, branch.head? = some e.id →
      ∃ top ∈ (s.exportTrees exportedAt ids).roots, ∃ q relationType,
        top.Within none q (s.exportNode e relationType branch) := by
  induction h with
  | root hid hthere =>
    rintro e he hhead
    cases hhead
    have hfind : s.entity? e.id = some e := hk.entity?_eq_some.2 ⟨he, rfl⟩
    refine ⟨s.exportNode e none [e.id], ?_, none, none, .here⟩
    exact List.mem_filterMap.2 ⟨e.id, hid, by rw [hfind]; rfl⟩
  | @grow id above link h hlink hoff hthere ih =>
    rintro c hc hhead
    obtain ⟨target, type⟩ := link
    cases hhead
    obtain ⟨p, hp, rfl⟩ := h.hasEntity
    obtain ⟨top, htop, q, relationType, hwithin⟩ := ih p hp rfl
    refine ⟨top, htop, _, some type, hwithin.deeper ?_⟩
    exact mem_children_exportNode.2
      ⟨_, hlink, hoff, c, hk.entity?_eq_some.2 ⟨hc, rfl⟩, rfl⟩

theorem linkType_of_settled {node : TreeNode} {type : String}
    (hnode : node.relationType = some type) (hsettled : Field.relationType.Settled type) :
    linkType node = type := by
  simp [linkType, hnode, Field.not_blank hsettled.passes]

/-- The nodes of an export portray the entities of the store. -/
theorem Placed.faithful (hs : s.Sound) {q : Option String} {node : TreeNode}
    (h : s.Placed ids q node) : s.Faithful q node := by
  constructor
  · obtain ⟨e, he, relationType, up, _, rfl⟩ := h.tip
    exact ⟨e, he, exportNode_portrays⟩
  · rintro name hname
    obtain ⟨p, hp, c, hc, type, rfl, hcname, _, up, _, _, hoff, _⟩ := h.link name hname
    rw [← hcname]
    intro hsame
    have hpc : c = p := List.inj_on_of_nodup_map hs.named hc hp hsame
    exact hoff (hpc ▸ List.mem_cons_self)
  · rintro name hname
    obtain ⟨p, hp, c, hc, type, _, _, hnode, up, _, hlink, _, _⟩ := h.link name hname
    have hsettled := hs.settled.link hlink
    rwa [linkType_of_settled hnode hsettled]

/-! ## Restoring -/

/-- Export entities and import the document into the empty store, with no decisions. -/
def restore (now exportedAt : Timestamp) (ids : List Id) (mode : ImportMode) (s : Store) :
    ImportReport × Store :=
  Store.empty.runImport now (s.exportTrees exportedAt ids) [] mode

/-- Restoring succeeds. It gives copies of the entities on branches, linked as the branches go: from
the entity further down to the one above it. -/
theorem restore_grown (now : Moment) (exportedAt : Timestamp) (ids : List Id) (mode : ImportMode)
    (hs : s.Sound) :
    (s.restore now.text exportedAt ids mode).1.success = true ∧
      s.Grown .empty (fun name => ∃ e ∈ s.entities, e.name = name ∧ ∃ up, s.Branch ids (e.id :: up))
        (fun source target type => ∃ p ∈ s.entities, ∃ c ∈ s.entities,
          c.name = source ∧ p.name = target ∧ s.Follows ids p.id ⟨c.id, type⟩)
        (s.restore now.text exportedAt ids mode).2 := by
  have hplaced : ∀ top ∈ (s.exportTrees exportedAt ids).roots, ∀ q node, top.Within none q node →
      s.Placed ids q node :=
    fun top htop q node h => placed_of_within hs.keyed htop h
  obtain ⟨hsuccess, hgrown⟩ := runImport_grown now hs
    (fun top htop q node h => (hplaced top htop q node h).faithful hs) mode
  refine ⟨hsuccess, hgrown.congr (fun name => ?_) fun source target type => ?_⟩
  · constructor
    · rintro ⟨q, node, ⟨top, htop, hwithin⟩, rfl⟩
      obtain ⟨e, he, relationType, up, hbranch, rfl⟩ := (hplaced top htop q node hwithin).tip
      exact ⟨e, he, exportNode_portrays.name.symm, up, hbranch⟩
    · rintro ⟨e, he, rfl, up, hbranch⟩
      obtain ⟨top, htop, q, relationType, hwithin⟩ :=
        within_of_branch hs.keyed exportedAt hbranch e he rfl
      exact ⟨q, _, ⟨top, htop, hwithin⟩, exportNode_portrays.name⟩
  · constructor
    · rintro ⟨node, ⟨top, htop, hwithin⟩, rfl, rfl⟩
      obtain ⟨p, hp, c, hc, type, rfl, hcname, hnode, up, hbranch, hlink, hoff⟩ :=
        (hplaced top htop _ node hwithin).link target rfl
      rw [linkType_of_settled hnode (hs.settled.link hlink)]
      exact ⟨p, hp, c, hc, hcname, rfl, up, hbranch, hlink, hoff⟩
    · rintro ⟨p, hp, c, hc, rfl, rfl, up, hbranch, hlink, hoff, hthere⟩
      obtain ⟨top, htop, q, relationType, hwithin⟩ :=
        within_of_branch hs.keyed exportedAt hbranch p hp rfl
      have hchild : s.exportNode c (some type) (c.id :: p.id :: up) ∈
          (s.exportNode p relationType (p.id :: up)).children :=
        mem_children_exportNode.2 ⟨_, hlink, hoff, c, hs.keyed.entity?_eq_some.2 ⟨hc, rfl⟩, rfl⟩
      have hdeeper := hwithin.deeper hchild
      rw [exportNode_portrays.name] at hdeeper
      exact ⟨_, ⟨top, htop, hdeeper⟩, exportNode_portrays.name,
        linkType_of_settled exportNode_relationType (hs.settled.link hlink)⟩

end
end MemoryGraph.Store
