-- SUMMARY: A store with upward relations alone knows its own exports: an import of one changes nothing.
import MemoryGraph.Proofs.Forecast
import MemoryGraph.Proofs.Repetition
import MemoryGraph.Proofs.RoundTrip

/-!
# Importing an own export

An export tells of entities that are there, and when all relations lead upwards
each of its nodes hangs where its entity hangs. So a comparison with the same
store finds every child under its parent, with nothing to be added. An import
merges every node into the entity that it was made of. All that this may change
is how aliases are spelled, and since their union stays the same, the nodes that
come later find it no less in place.
-/
namespace MemoryGraph

open Text

namespace Entity

variable {a b e : Entity}

/-- An entity without the moment of its last change, with its aliases spelled as a union of them. -/
def respelled (e : Entity) : Entity :=
  { e.undated with aliases := aliasUnionText [e.aliases.getD ""] }

@[simp] theorem respelled_id : e.respelled.id = e.id := rfl

@[simp] theorem respelled_name : e.respelled.name = e.name := rfl

@[simp] theorem respelled_aliases :
    e.respelled.aliases = aliasUnionText [e.aliases.getD ""] := rfl

theorem eq_of_respelled (h : a.respelled = b.respelled) :
    a.id = b.id ∧ a.name = b.name ∧
      aliasUnion [a.aliases.getD ""] = aliasUnion [b.aliases.getD ""] := by
  have hid := congrArg Entity.id h
  have hname := congrArg Entity.name h
  have haliases := congrArg (fun e => aliasesOf (e.aliases.getD "")) h
  simp only [respelled_id, respelled_name, respelled_aliases, aliasesOf_aliasUnionText] at *
  exact ⟨hid, hname, haliases⟩

end Entity

namespace Store

/-! ## What a store knows of a tree -/

/-- A node portrays an entity, and the entity is linked to the one of the name above as the node
says. -/
def Knows (s : Store) (above : Option String) (node : TreeNode) : Prop :=
  ∃ e ∈ s.entities, s.Portrays node e ∧
    ∀ parent, s.Stands above parent → s.Holds node parent e.id

section Exported

variable {s : Store} {ids : List Id} {q : Option String} {node : TreeNode} {parentName : String}

theorem said_of_draftsOf {id : Id} : ∀ draft ∈ s.draftsOf id, draft.content ∈ s.contentsOf id := by
  intro draft hdraft
  obtain ⟨o, ho, rfl⟩ := List.mem_map.1 hdraft
  exact List.mem_map_of_mem ho

/-- Where all relations lead upwards, a store knows what it exports. -/
theorem Placed.knows (hs : s.Sound) (hup : s.Upward) (h : s.Placed ids q node) :
    s.Knows q node := by
  obtain ⟨e, he, hportrays⟩ := (h.faithful hs).portrays
  have htrim : trim e.name = e.name := (hs.settled.entities e he).name.trim_eq
  refine ⟨e, he, hportrays, fun parent hparent => ⟨⟨e, he, rfl, ?_⟩, ?_, ?_⟩⟩
  · rw [hportrays.name, htrim]
  · rw [hportrays.observations]
    exact said_of_draftsOf
  · rintro p rfl _
    cases q with
    | none => cases hparent
    | some name =>
      obtain ⟨p', hp', rfl, hsame⟩ := hparent
      cases hsame
      obtain ⟨above, habove, c, hc, type, habovename, hcname, hnode, _, _, hlink, _⟩ :=
        h.link p'.name rfl
      obtain rfl := List.inj_on_of_nodup_map hs.named habove hp' habovename
      obtain rfl := List.inj_on_of_nodup_map hs.named hc he (hcname.trans hportrays.name)
      have hsettled := hs.settled.link hlink
      rw [← trim_linkType, linkType_of_settled hnode hsettled, hsettled.trim_eq]
      exact ⟨hsettled.validate, hup.triple_of_link hlink⟩

/-! ## Comparing -/

/-- The comparison of a child takes it for the entity that it portrays and leaves nothing to do. -/
structure Recognised (s : Store) (node : TreeNode) (r : NodeComparison) : Prop where
  own : ∃ e ∈ s.entities, s.Portrays node e ∧ r.selected = some e.id
  confidence : r.confidence = .high
  plan : r.childPlan = some .skip
  silent : r.willAddObservations = false

theorem Placed.recognised (hs : s.Sound) (hup : s.Upward) (h : s.Placed ids (some parentName) node)
    (path : NodePath) : s.Recognised node (s.compareChild node path parentName) := by
  obtain ⟨e, he, hportrays, hholds⟩ := h.knows hs hup
  obtain ⟨p, hp, -, -, -, hpname, -⟩ := h.link parentName rfl
  have hheld := hholds (some p.id) ⟨p, hp, hpname, rfl⟩
  have hsettled := hs.settled.entities e he
  have hapart : e.id ≠ p.id := by
    intro hid
    obtain rfl := hs.keyed.entities.unique he hp hid
    exact (h.faithful hs).apart parentName rfl (hportrays.name.trans hpname)
  have hexisting : s.entityOf? (trim node.name) (trim node.entityType) = some e := by
    rw [hs.named.entityOf?_eq_some, hportrays.name, hportrays.entityType]
    exact ⟨he, hsettled.name.trim_eq.symm, hsettled.entityType.trim_eq.symm⟩
  have hunder : s.isUnder e.id parentName = true := by
    obtain ⟨r, hr, hsource, htarget, htype⟩ := mem_triples.1 (hheld.linked p.id rfl hapart).2
    have hfind : s.entity? p.id = some p := hs.keyed.entity?_eq_some.2 ⟨hp, rfl⟩
    have hname : trim parentName = p.name := by
      rw [← hpname]
      exact (hs.settled.entities p hp).name.trim_eq
    refine List.any_eq_true.2 ⟨r, List.mem_filter.2 ⟨hr, ?_⟩, ?_⟩
    · simp [hsource, hup r hr]
    · simp [htarget, hfind, hname]
  have hquiet : s.saysMore e.id node = false := by
    rw [saysMore, List.any_eq_false]
    intro draft hdraft
    simpa using hheld.said draft hdraft
  refine ⟨⟨e, he, hportrays, ?_⟩, ?_, ?_, ?_⟩ <;> simp [compareChild, hexisting, hunder, hquiet]

end Exported

section Below

variable {s : Store} {P : Option String → TreeNode → Prop}
  {R : NodeComparison → NodePath × TreeNode → Prop}

mutual
/-- What holds of the comparison of a child with the name above it holds of all results below it. -/
theorem forall₂_compareSubtree_of (hchild : ∀ path node parentName, P (some parentName) node →
      R (s.compareChild node path parentName) (path, node))
    (path : NodePath) (parentName : String) :
    (node : TreeNode) → (∀ q n, node.Within (some parentName) q n → P q n) →
      List.Forall₂ R (s.compareSubtree path parentName node) (node.places path)
  | ⟨name, entityType, aliases, description, observations, relationType, children⟩ => by
    intro hwithin
    rw [compareSubtree, TreeNode.places]
    refine .cons (hchild path _ parentName (hwithin _ _ .here))
      (forall₂_compareSubtrees_of hchild path name 0 children fun child hmem q n h => ?_)
    exact hwithin q n (TreeNode.within_iff.2 (.inr ⟨child, hmem, h⟩))
theorem forall₂_compareSubtrees_of (hchild : ∀ path node parentName,
      P (some parentName) node → R (s.compareChild node path parentName) (path, node))
    (path : NodePath) (parentName : String) (index : Nat) :
    (nodes : List TreeNode) →
      (∀ node ∈ nodes, ∀ q n, node.Within (some parentName) q n → P q n) →
      List.Forall₂ R (s.compareSubtrees path parentName index nodes)
        (TreeNode.placesBelow path index nodes)
  | [] => by
    intro _
    rw [compareSubtrees, TreeNode.placesBelow]
    exact .nil
  | node :: rest => by
    intro hwithin
    rw [compareSubtrees, TreeNode.placesBelow]
    exact List.rel_append
      (forall₂_compareSubtree_of hchild (path.child index) parentName node
        (hwithin node List.mem_cons_self))
      (forall₂_compareSubtrees_of hchild path parentName (index + 1) rest
        fun other hother => hwithin other (List.mem_cons_of_mem _ hother))
end

theorem forall₂_compareTrees_of (hroot : ∀ index node, P none node →
      R (s.compareRoot node { root := index }) ({ root := index }, node))
    (hchild : ∀ path node parentName, P (some parentName) node →
      R (s.compareChild node path parentName) (path, node)) (index : Nat) {nodes : List TreeNode}
    (hwithin : ∀ node ∈ nodes, ∀ q n, node.Within none q n → P q n) :
    List.Forall₂ R (s.compareTrees index nodes) (TreeDocument.placesFrom index nodes) := by
  induction nodes generalizing index with
  | nil => exact .nil
  | cons node rest ih =>
    rw [compareTrees, TreeDocument.placesFrom]
    refine List.rel_append ?_ (ih (index + 1) fun other hother =>
      hwithin other (List.mem_cons_of_mem _ hother))
    have hnode := hwithin node List.mem_cons_self
    obtain ⟨name, entityType, aliases, description, observations, relationType, children⟩ := node
    rw [TreeNode.places]
    refine .cons (hroot index _ (hnode _ _ .here))
      (forall₂_compareSubtrees_of hchild { root := index } name 0 children ?_)
    intro child hmem q n h
    exact hnode q n (TreeNode.within_iff.2 (.inr ⟨child, hmem, h⟩))

end Below

/-! ## Importing -/

/-- A store says what another one says: only aliases may be spelled otherwise, and entities may have
been changed later. -/
structure SameAs (s t : Store) : Prop where
  entities : t.entities.map Entity.respelled = s.entities.map Entity.respelled
  observations : t.observations = s.observations
  relations : t.relations = s.relations

section Known

variable {s t after : Store} {now : Timestamp} {node : TreeNode} {parent : Option Id} {id : Id}
  {e target : Entity}

theorem exists_respelled (h : t.entities.map Entity.respelled = s.entities.map Entity.respelled)
    (he : e ∈ s.entities) : ∃ e' ∈ t.entities, e'.respelled = e.respelled := by
  have hmem : e.respelled ∈ t.entities.map Entity.respelled := h ▸ List.mem_map_of_mem he
  exact List.mem_map.1 hmem

theorem SameAs.holds (h : s.SameAs t) (hheld : s.Holds node parent id) :
    t.Holds node parent id where
  named := by
    obtain ⟨e, he, hid, hname⟩ := hheld.named
    obtain ⟨e', he', hsame⟩ := exists_respelled h.entities he
    obtain ⟨hsameid, hsamename, _⟩ := Entity.eq_of_respelled hsame
    exact ⟨e', he', hsameid.trans hid, hsamename.trans hname⟩
  said := by
    rw [contentsOf, observationsOf, h.observations]
    exact hheld.said
  linked := by
    rw [h.relations]
    exact hheld.linked

/-- Merging a node into the entity that it portrays adds no alias. -/
theorem SameAs.reabsorbed (h : s.SameAs t) (hs : s.Sound) (he : e ∈ s.entities)
    (hportrays : s.Portrays node e) (hmerged : t.Reabsorbed now node target after) :
    s.SameAs after where
  entities := by
    obtain ⟨e', he', hsame⟩ := exists_respelled h.entities.symm hmerged.mem
    obtain ⟨_, hname, haliases⟩ := Entity.eq_of_respelled hsame
    have htarget : target.name = e.name := by
      rw [hmerged.name, hportrays.name, (hs.settled.entities e he).name.trim_eq]
    obtain rfl := List.inj_on_of_nodup_map hs.named he' he (hname.trans htarget)
    have hunion : aliasUnionText [(absorbed now target node target.observationCount
        target).aliases.getD ""] = aliasUnionText [target.aliases.getD ""] := by
      rw [Reabsorbed.aliases_absorbed]
      apply aliasUnionText_congr
      rw [aliasUnion_aliasUnionText, hportrays.aliases, aliasUnion_pair haliases.symm]
    rw [hmerged.map_entities, h.entities]
    simp only [Entity.respelled, hunion]
    rfl
  observations := hmerged.observations.trans h.observations
  relations := hmerged.relations.trans h.relations

end Known
end Store

namespace Visit

variable {now : Moment} {s t : Store}

/-- Visits that merge their nodes and leave the store saying what it said. -/
structure Quiet (s t : Store) (visits : List (Visit now.text [])) : Prop where
  reabsorbs : ∀ w ∈ visits, w.Reabsorbs
  same : s.SameAs (storeAfter t visits)

/-- A visit to a node that the store knows is quiet, and stands for the entity of its name. -/
theorem quiet_of_knows (hs : s.Sound) {w : Visit now.text []} {above : Option String}
    (hsame : s.SameAs w.before) (hsound : w.before.Sound) (hcounted : w.before.Counted)
    (hknows : s.Knows above w.node) (hparent : s.Stands above w.treeParent) :
    Quiet s w.before [w] ∧ s.Stands (some w.node.name) w.resolved := by
  obtain ⟨e, he, hportrays, hholds⟩ := hknows
  obtain ⟨target, after, hid, hmerged, hok⟩ :=
    (hsame.holds (hholds _ hparent)).reabsorbed hsound hcounted now
  have houtcome : w.outcome = .ok ({ fate := .merged, resolved := some e.id }, after) := hok
  have heffect : w.effect? = some { fate := .merged, resolved := some e.id } := by
    rw [effect?, houtcome]
  have hafter : w.after = after := by
    rw [Visit.after, houtcome]
  refine ⟨⟨?_, ?_⟩, e, he, hportrays.name.symm, resolved_of_effect heffect⟩
  · simp only [List.mem_singleton, forall_eq]
    exact ⟨target, hafter ▸ hmerged, hid ▸ heffect⟩
  · show s.SameAs w.after
    rw [hafter]
    exact hsame.reabsorbed hs he hportrays hmerged

theorem Quiet.append {first later : List (Visit now.text [])} (h : Quiet s t first)
    (hlater : Quiet s (storeAfter t first) later) : Quiet s t (first ++ later) where
  reabsorbs w hw := (List.mem_append.1 hw).elim (h.reabsorbs w) (hlater.reabsorbs w)
  same := by
    rw [storeAfter_append]
    exact hlater.same

mutual
/-- Walking a tree that the store knows is quiet. -/
theorem quiet_ofTree (hs : s.Sound) {above : Option String} (path : NodePath)
    (treeParent : Option Id) (hparent : s.Stands above treeParent) (t : Store) (hsame : s.SameAs t)
    (hsound : t.Sound) (hcounted : t.Counted) :
    (node : TreeNode) → (∀ q n, node.Within above q n → s.Knows q n) →
      Quiet s t (ofTree now.text [] path treeParent t node)
  | ⟨name, entityType, aliases, description, observations, relationType, children⟩ => by
    let w : Visit now.text [] :=
      { node := ⟨name, entityType, aliases, description, observations, relationType, children⟩
        path, treeParent, before := t }
    intro hknows
    obtain ⟨hfirst, hstands⟩ : Quiet s t [w] ∧ s.Stands (some name) w.resolved :=
      quiet_of_knows (w := w) hs hsame hsound hcounted (hknows _ _ .here) hparent
    rw [ofTree]
    refine hfirst.append (quiet_ofTrees hs path w.resolved hstands 0 w.after hfirst.same
      (w.sound_after hsound) (w.counted_after hcounted) children fun child hchild q n h => ?_)
    exact hknows q n (TreeNode.within_iff.2 (.inr ⟨child, hchild, h⟩))
theorem quiet_ofTrees (hs : s.Sound) {above : Option String} (path : NodePath)
    (treeParent : Option Id) (hparent : s.Stands above treeParent) (index : Nat) (t : Store)
    (hsame : s.SameAs t) (hsound : t.Sound) (hcounted : t.Counted) :
    (nodes : List TreeNode) → (∀ node ∈ nodes, ∀ q n, node.Within above q n → s.Knows q n) →
      Quiet s t (ofTrees now.text [] path treeParent index t nodes)
  | [] => by
    intro _
    rw [ofTrees]
    exact ⟨by simp, hsame⟩
  | node :: rest => by
    intro hknows
    rw [ofTrees]
    have hchained : Chained t (ofTree now.text [] (path.child index) treeParent t node) :=
      chained_ofTree (path.child index) treeParent t node
    have hfirst : Quiet s t (ofTree now.text [] (path.child index) treeParent t node) :=
      quiet_ofTree hs (path.child index) treeParent hparent t hsame hsound hcounted node
        (hknows node List.mem_cons_self)
    exact hfirst.append (quiet_ofTrees hs path treeParent hparent (index + 1) _ hfirst.same
      (hchained.sound hsound) (hchained.counted hcounted) rest
      fun other hother => hknows other (List.mem_cons_of_mem _ hother))
end

theorem quiet_ofRoots (hs : s.Sound) (index : Nat) (t : Store) (hsame : s.SameAs t)
    (hsound : t.Sound) (hcounted : t.Counted) {nodes : List TreeNode}
    (hknows : ∀ node ∈ nodes, ∀ q n, node.Within none q n → s.Knows q n) :
    Quiet s t (ofRoots now.text [] index t nodes) := by
  induction nodes generalizing index t with
  | nil => exact ⟨by simp [ofRoots], hsame⟩
  | cons node rest ih =>
    rw [ofRoots]
    have hchained : Chained t (ofTree now.text [] { root := index } none t node) :=
      chained_ofTree { root := index } none t node
    have hroot : s.Stands none none := rfl
    have hfirst : Quiet s t (ofTree now.text [] { root := index } none t node) :=
      quiet_ofTree hs { root := index } none hroot t hsame hsound hcounted node
        (hknows node List.mem_cons_self)
    exact hfirst.append (ih (index + 1) _ hfirst.same (hchained.sound hsound)
      (hchained.counted hcounted) fun other hother => hknows other (List.mem_cons_of_mem _ hother))

end Visit

/-- Importing a document that the store knows succeeds and adds nothing. -/
theorem runImport_of_knows {s : Store} (hs : s.Sound) (hc : s.Counted) (now : Moment)
    {document : TreeDocument} (mode : ImportMode)
    (hknows : ∀ top ∈ document.roots, ∀ q n, top.Within none q n → s.Knows q n) :
    let result := s.runImport now.text document [] mode
    result.1.success = true ∧
      (result.1.created = 0 ∧ result.1.observations = 0 ∧ result.1.relations = 0) ∧
      s.SameAs result.2 := by
  intro result
  have hquiet : Visit.Quiet s s (s.visits now.text [] document) :=
    Visit.quiet_ofRoots hs 0 s ⟨rfl, rfl, rfl⟩ hs hc hknows
  have hsuccess : result.1.success = true :=
    success_of_visits mode fun w hw => (hquiet.reabsorbs w hw).failure?_eq_none
  obtain ⟨hcreated, _, hobserved, hrelated⟩ := Store.report_of_reabsorbs hquiet.reabsorbs
  have hresult : result = (s.visitsReport now.text [] document,
      Visit.storeAfter s (s.visits now.text [] document)) := (runImport_of_success hsuccess).2
  refine ⟨hsuccess, ?_, ?_⟩
  · rw [hresult]
    exact ⟨hcreated, hobserved, hrelated⟩
  · rw [hresult]
    exact hquiet.same

/-- Where all relations lead upwards, comparing an export with its own store recognises every child
in its place, and importing it succeeds and creates nothing. Of the rows that are there it changes
at most the moment of the last change of entities and the spelling of their aliases, whose union
stays as it is. -/
theorem reimported_of_upward {s : Store} (h : Reachable s) (hup : s.Upward) (now : Moment)
    (exportedAt : Timestamp) (ids : List Id) (mode : ImportMode) :
    let document := s.exportTrees exportedAt ids
    let result := s.runImport now.text document [] mode
    List.Forall₂ (fun r place => r.path = place.1 ∧
        (place.1.below ≠ [] → s.Recognised place.2 r))
      (s.compareDocument document).results document.places ∧
    result.1.success = true ∧
      (result.1.created = 0 ∧ result.1.observations = 0 ∧ result.1.relations = 0) ∧
      s.SameAs result.2 := by
  intro document result
  have hplaced : ∀ top ∈ document.roots, ∀ q n, top.Within none q n → s.Placed ids q n :=
    fun top htop q n hwithin => Store.placed_of_within h.sound.keyed htop hwithin
  constructor
  · refine Store.forall₂_compareTrees_of (P := s.Placed ids) ?_ ?_ 0 hplaced
    · exact fun index node _ => ⟨rfl, fun hbelow => absurd rfl hbelow⟩
    · exact fun path node parentName hat => ⟨rfl, fun _ => hat.recognised h.sound hup path⟩
  · exact runImport_of_knows h.sound h.counted now mode fun top htop q n hwithin =>
      (hplaced top htop q n hwithin).knows h.sound hup

/-- Two entities above each other, linked twice, with a child below both of them and aliases as they
were typed. -/
def Store.knot : Store :=
  let now : Moment := .ofNanoseconds 0
  Store.run .empty [
    (now, .addEntity { name := "upper", entityType := "Project", aliases := some "b ;A,,a" }),
    (now, .addEntity { name := "lower", entityType := "Module", observations := ["seen", "seen"] }),
    (now, .addEntity { name := "shared", entityType := "Note", aliases := some ", ;"
                       observations := ["said"] }),
    (now, .relate 2 1 "part_of"), (now, .relate 2 1 "depends_on"), (now, .relate 1 2 "part_of"),
    (now, .relate 3 1 "part_of"), (now, .relate 3 2 "depends_on")]

theorem reimported_knot :
    let later : Moment := .ofNanoseconds 1000000000
    let document := Store.knot.exportTrees "" [1, 9, 2]
    let result := Store.knot.runImport later.text document [] .atomic
    Store.knot.Upward ∧
      List.Forall₂ (fun r place => r.path = place.1 ∧
          (place.1.below ≠ [] → Store.knot.Recognised place.2 r))
        (Store.knot.compareDocument document).results document.places ∧
      result.1.success = true ∧
      (result.1.created = 0 ∧ result.1.observations = 0 ∧ result.1.relations = 0) ∧
      Store.knot.SameAs result.2 ∧
      (Store.knot.entities.map Entity.aliases, result.2.entities.map Entity.aliases) =
        ([some "b ;A,,a", none, some ", ;"], [some "b, A", none, none]) := by
  intro later document result
  have hreachable : Reachable Store.knot := Reachable.empty.run _
  have hup : Store.knot.Upward := by
    unfold Store.Upward
    decide +kernel
  obtain ⟨hcompared, hsuccess, hnothing, hsame⟩ :=
    reimported_of_upward hreachable hup later "" [1, 9, 2] .atomic
  exact ⟨hup, hcompared, hsuccess, hnothing, hsame, by decide +kernel⟩

end MemoryGraph
