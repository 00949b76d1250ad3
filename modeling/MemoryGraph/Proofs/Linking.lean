-- SUMMARY: The relations that an import leaves: those that were there, and the links of the tree.
import MemoryGraph.Proofs.Visit

/-!
# The links of an import

A visit that succeeds and does not skip its node links the entity of the node to
a parent: the one that its decision names, or else the entity that stands for the
node above it. What stands for a node depends on what became of it. An import
adds these links and no other relation.
-/
namespace MemoryGraph

open Text

namespace Visit

variable {now : Timestamp} {decisions : Decisions} {s : Store}
  {visits : List (Visit now decisions)}

/-! ## What stands for a node -/

/-- The entity that stands for a node, by what became of it. -/
structure Resolves (v : Visit now decisions) : Prop where
  failed : v.failure? ≠ none → v.resolved = none
  /-- A skipped node stands for the entity that is given, or for that of its name and type. -/
  skipped : v.failure? = none → ∀ target parent, v.decision = .skip target parent →
    v.resolved = target.or
      ((v.before.entityOf? (trim v.node.name) (trim v.node.entityType)).map Entity.id)
  given : v.failure? = none → ∀ target parent,
    v.decision = .merge target parent ∨ v.decision = .addRelation target parent →
      v.resolved = some target
  /-- A node that is to be created stands for the entity of its name, whether it is new or not. -/
  named : v.failure? = none → ∀ parent, v.decision = .create parent →
    ∃ e ∈ v.after.entities, e.name = trim v.node.name ∧ v.resolved = some e.id

theorem resolves (v : Visit now decisions) : v.Resolves := by
  rcases v.cases with ⟨heffect, _, cause, _, hfailure⟩ | ⟨hnone, effect, _, heffect, hadmitted⟩
  · have hfailed : v.failure? ≠ none := by simp [hfailure]
    constructor
    case failed => exact fun _ => by rw [resolved, heffect, Option.bind_none]
    case skipped | given | named => exact fun hsome => absurd hsome hfailed
  · have hresolved := resolved_of_effect heffect
    constructor
    case failed => exact fun hfailed => absurd hnone hfailed
    case skipped =>
      intro _ target parent hdecision
      rw [hdecision] at hadmitted
      exact hresolved.trans hadmitted.resolved_of_skip
    case given =>
      intro _ target parent hdecision
      exact hresolved.trans (hadmitted.resolved_of_given hdecision)
    case named =>
      intro _ parent hdecision
      rw [hdecision] at hadmitted
      rw [hresolved]
      exact hadmitted.resolved_of_create

/-! ## Links -/

/-- A visit links its node: it succeeds, does not skip, and the node has a parent that is another
entity than its own. -/
structure Links (v : Visit now decisions) (source target : Id) (relationType : String) : Prop where
  succeeds : v.failure? = none
  kept : ∀ target parent, v.decision ≠ .skip target parent
  entity : v.resolved = some source
  parent : v.parent = some target
  apart : source ≠ target
  type : relationType = v.node.relationToParent

/-- A visit adds nothing but a link, and its link is there afterwards. -/
theorem relations_after (v : Visit now decisions) :
    (∃ added, v.after.relations = v.before.relations ++ added ∧
      ∀ r ∈ added, v.Links r.source r.target r.relationType) ∧
    ∀ source target relationType, v.Links source target relationType →
      (source, target, relationType) ∈ v.after.relations.map Relation.triple := by
  rcases v.cases with ⟨_, hafter, cause, _, hfailure⟩ | ⟨hnone, effect, _, heffect, hadmitted⟩
  · refine ⟨⟨[], by simp [hafter], by simp⟩, ?_⟩
    intro source target relationType hlinks
    exact absurd hlinks.succeeds (by simp [hfailure])
  · have hresolved := resolved_of_effect heffect
    rcases hadmitted.adds with ⟨_, hafter, _, _, given, parent, hskip, _⟩ |
      ⟨_, hkept, id, drafts, _, hadds⟩
    · refine ⟨⟨[], by simp [hafter], by simp⟩, ?_⟩
      intro source target relationType hlinks
      exact absurd hskip (hlinks.kept given parent)
    · rw [hadds.resolved] at hresolved
      obtain ⟨added, hafter, _, hadded⟩ := hadds.relations
      constructor
      · refine ⟨added, hafter, ?_⟩
        intro r hr
        obtain ⟨p, hparent, hne, htriple⟩ := hadded r hr
        obtain ⟨hsource, htarget, htype⟩ : r.source = id ∧ r.target = p ∧
            r.relationType = v.node.relationToParent := by simpa [Relation.triple] using htriple
        rw [hsource, htarget, htype]
        exact ⟨hnone, hkept, hresolved, hparent, hne, rfl⟩
      · intro source target relationType hlinks
        obtain rfl : id = source := Option.some.inj (hresolved.symm.trans hlinks.entity)
        rw [hlinks.type]
        exact (hadds.linked target hlinks.parent hlinks.apart).2

/-- Relations stay, and those that come are links. -/
theorem Chained.relations (h : Chained s visits) :
    ∃ added, (storeAfter s visits).relations = s.relations ++ added ∧
      ∀ r ∈ added, ∃ v ∈ visits, v.Links r.source r.target r.relationType := by
  induction visits generalizing s with
  | nil => exact ⟨[], by simp [storeAfter], by simp⟩
  | cons v rest ih =>
    obtain ⟨rfl, hrest⟩ := h
    obtain ⟨⟨first, hfirst, hlinks⟩, _⟩ := v.relations_after
    obtain ⟨more, hmore, hothers⟩ := ih hrest
    refine ⟨first ++ more, ?_, ?_⟩
    · rw [storeAfter, hmore, hfirst, List.append_assoc]
    · intro r hr
      rcases List.mem_append.1 hr with hr | hr
      · exact ⟨v, List.mem_cons_self, hlinks r hr⟩
      · obtain ⟨u, hu, hlink⟩ := hothers r hr
        exact ⟨u, List.mem_cons_of_mem _ hu, hlink⟩

/-- The link of every visit is there in the end. -/
theorem Chained.linked (h : Chained s visits) {v : Visit now decisions} (hv : v ∈ visits)
    {source target : Id} {relationType : String} (hlinks : v.Links source target relationType) :
    (source, target, relationType) ∈ (storeAfter s visits).relations.map Relation.triple := by
  obtain ⟨earlier, later, rfl⟩ := List.append_of_mem hv
  obtain ⟨_, _, hlater⟩ := chained_append.1 h
  obtain ⟨more, hmore, _⟩ := hlater.relations
  rw [storeAfter_append, storeAfter, hmore, List.map_append]
  exact List.mem_append_left _ (v.relations_after.2 source target relationType hlinks)

end Visit

/-! ## The whole import -/

/-- The relations after an import that keeps what succeeds are those before it and the links of its
visits. -/
structure LinksTree {now : Timestamp} {decisions : Decisions} (s : Store)
    (document : TreeDocument) (visits : List (Visit now decisions)) (after : Store) : Prop where
  /-- Every node is visited once, from the store that the visit before it left. -/
  places : visits.map Visit.place = document.places
  chained : Visit.Chained s visits ∧ Visit.storeAfter s visits = after
  /-- The parent in the tree is what stands for the node above. -/
  hangs : ∀ v ∈ visits, Visit.HangsIn visits v
  resolves : ∀ v ∈ visits, v.Resolves
  kept : ∀ r ∈ s.relations, r ∈ after.relations
  only : ∀ r ∈ after.relations,
    r ∈ s.relations ∨ ∃ v ∈ visits, v.Links r.source r.target r.relationType
  all : ∀ v ∈ visits, ∀ source target relationType, v.Links source target relationType →
    (source, target, relationType) ∈ after.relations.map Relation.triple

/-- An import that keeps what succeeds links every node that it creates or merges to its parent, and
adds no other relation. -/
theorem links_tree (s : Store) (now : Timestamp) (decisions : Decisions)
    (document : TreeDocument) :
    LinksTree s document (s.visits now decisions document)
      (s.runImport now document decisions .bestEffort).2 := by
  rw [Store.runImport_eq, if_neg (by simp)]
  have hchained : Visit.Chained s (s.visits now decisions document) := Store.chained_visits
  obtain ⟨added, hadded, hlinks⟩ := hchained.relations
  constructor
  case places => exact Store.places_visits
  case chained => exact ⟨hchained, rfl⟩
  case hangs => exact Store.hangs_visits
  case resolves => exact fun v _ => v.resolves
  case kept =>
    intro r hr
    rw [hadded]
    exact List.mem_append_left _ hr
  case only =>
    intro r hr
    rw [hadded] at hr
    exact (List.mem_append.1 hr).imp_right (hlinks r)
  case all => exact fun v hv _ _ _ hlink => hchained.linked hv hlink

/-- A skipped node passes the entity of its name and type on to its children, a failed one passes
nothing on, and a decision may name another parent. -/
example :
    let now : Moment := .ofNanoseconds 0
    let s := Store.run .empty [(now, .addEntity { name := "top", entityType := "Project" })]
    let document : TreeDocument := { roots := [
      { name := "top", entityType := "Project", children := [
        { name := "known", entityType := "Note", relationType := some " depends_on " }] },
      { name := " ", entityType := "Note", children := [
        { name := "alone", entityType := "Note" },
        { name := "moved", entityType := "Note", relationType := some " " }] }] }
    let decisions : Decisions := [("0", .skip none none), ("1.children.1", .create (some 2))]
    (s.runImport now.text document decisions .bestEffort).2.relations.map Relation.triple =
      [(2, 1, "depends_on"), (4, 2, "part_of")] := by
  decide +kernel

end MemoryGraph
