-- SUMMARY: Importing a document again merges every node into the entity of the first import and adds nothing.
import MemoryGraph.Proofs.Count
import MemoryGraph.Proofs.Preservation

/-!
# Importing a document again

After an import without a failure the entity of every node is there, says what
the node says, and is linked to the entity of the parent. Nothing that is
imported later takes this away. A second import of the document therefore merges
every node into the entity that stands for it already, and finds nothing to add
but aliases in the spelling of a union; a third one finds not even these.
-/
namespace MemoryGraph

open Text

/-! ## Entities but for what is merged -/

namespace Entity

/-- An entity without the moment of its last change. -/
def undated (e : Entity) : Entity := { e with updatedAt := "" }

/-- An entity without the moment of its last change and without its aliases. -/
def lasting (e : Entity) : Entity := { e.undated with aliases := none }

end Entity

/-! ## What an import leaves of a node -/

namespace Store

variable {s after : Store} {node : TreeNode} {parent : Option Id} {id : Id}

/-- A store holds what a node says under an entity: its name, its observations, and its link to the
parent. -/
structure Holds (s : Store) (node : TreeNode) (parent : Option Id) (id : Id) : Prop where
  named : ∃ e ∈ s.entities, e.id = id ∧ e.name = trim node.name
  said : ∀ draft ∈ node.observations, draft.content ∈ s.contentsOf id
  linked : ∀ p, parent = some p → id ≠ p → Field.relationType.validate (linkType node) = .ok () ∧
    (id, p, node.relationToParent) ∈ s.relations.map Relation.triple

theorem mem_contentsOf {content : String} :
    content ∈ s.contentsOf id ↔ ∃ o ∈ s.observations, o.entityId = id ∧ o.content = content := by
  simp [contentsOf, observationsOf, and_assoc]

/-- What an import leaves undamaged goes on holding what nodes said. -/
theorem Holds.mono {touched : List Id} (h : s.Holds node parent id)
    (hkept : s.Undamaged touched after) : after.Holds node parent id where
  named := by
    obtain ⟨e, he, hid, hname⟩ := h.named
    obtain ⟨kept, hthere, hsame, _⟩ := hkept.entities e he
    exact ⟨kept, hthere, hsame.id.trans hid, hsame.name.trans hname⟩
  said draft hdraft := by
    obtain ⟨o, ho, howner⟩ := mem_contentsOf.1 (h.said draft hdraft)
    exact mem_contentsOf.2 ⟨o, hkept.observations.subset ho, howner⟩
  linked p hp hne := by
    obtain ⟨hvalid, hthere⟩ := h.linked p hp hne
    exact ⟨hvalid, (hkept.relations.map Relation.triple).subset hthere⟩

/-- A node that was created or merged is held. -/
theorem Admitted.holds {now : Timestamp} {given : Option Id} {effect : NodeEffect}
    (h : s.Admitted now node (.create given) parent effect after) :
    ∃ id, effect.resolved = some id ∧ effect.fate ≠ .skipped ∧
      after.Holds node (given.or parent) id := by
  cases h with
  | skipped hskip _ => cases hskip
  | @merged target _ _ htarget hfate hentities hadds =>
    have hname : target.name = trim node.name := entityNamed?_name htarget
    refine ⟨target.id, hadds.resolved, by simp [hfate], ?_, ?_, hadds.linked⟩
    · rw [hentities]
      exact ⟨_, absorbed_mem_absorbedRows (mem_of_mergeTarget? htarget), absorbed_id,
        absorbed_name.trans hname⟩
    · intro draft hdraft
      rw [hadds.contentsOf, if_pos rfl]
      exact List.mem_append.2 (mem_unseen hdraft)
  | @created _ row _ _ _ _ hrow hfate hentities hadds =>
    refine ⟨row.id, hadds.resolved, by simp [hfate], ?_, ?_, hadds.linked⟩
    · rw [hentities]
      exact ⟨_, counted_mem_createdRows, rfl,
        (congrArg Entity.name hrow).trans TreeNode.newEntity_name⟩
    · intro draft hdraft
      rw [hadds.contentsOf, if_pos rfl]
      exact List.mem_append_right _ (List.mem_map_of_mem hdraft)

/-! ## Applying a node that is held -/

/-- Merging a node adds no observation to an entity that says all that the node says. -/
theorem absorbNode_of_said (now : Timestamp) {target : Entity}
    (hsaid : ∀ draft ∈ node.observations, draft.content ∈ s.contentsOf target.id) :
    ∃ after, s.absorbNode now target node = .ok (0, after) := by
  let aliases := aliasUnionText [target.aliases.getD "", node.aliases.getD ""]
  let named := if aliases = target.aliases then s
    else s.modifyEntity target.id fun e => { e with aliases, updatedAt := now }
  have hobservations : named.observations = s.observations := by
    unfold named
    split <;> rfl
  have hknown : unseen (named.contentsOf target.id) node.observations = [] := by
    rw [unseen_eq_nil]
    simpa only [contentsOf, observationsOf, hobservations] using hsaid
  refine ⟨named.refreshCount now target.id, ?_⟩
  unfold absorbNode
  dsimp only
  refine bind_eq_ok.2 ⟨([], named), ?_, rfl⟩
  exact (congrArg (fun drafts => appendObservations now target.id drafts named) hknown).trans rfl

/-- Linking an entity to its parent adds no relation when the link is there. -/
theorem linkToParent_of_linked (now : Timestamp) (hs : s.Linked)
    (hlinked : ∀ p, parent = some p → id ≠ p →
      Field.relationType.validate (linkType node) = .ok () ∧
        (id, p, node.relationToParent) ∈ s.relations.map Relation.triple) :
    ∃ after, s.linkToParent now node id parent = .ok (0, after) := by
  cases parent with
  | none => exact ⟨s, rfl⟩
  | some p =>
    by_cases hsame : p = id
    · exact ⟨s, if_pos hsame⟩
    · obtain ⟨hvalid, hthere⟩ := hlinked p rfl (Ne.symm hsame)
      obtain ⟨e, he⟩ := Option.isSome_iff_exists.1
        (isSome_entity?_iff.2 (hs.ends_of_triple hthere).2)
      have hfound : (s.relationBetween? id p (trim (linkType node))).isSome = true := by
        rw [trim_linkType, ← Option.ne_none_iff_isSome, ne_eq, relationBetween?_eq_none]
        obtain ⟨r, hr, hsource, htarget, htype⟩ := mem_triples.1 hthere
        exact fun hnone => hnone r hr hsource htarget htype
      have hlink : s.appendRelation now id p (linkType node) =
          .ok (none, { s with nextRelation := s.nextRelation + 1 }) := by
        simp only [appendRelation, bind_eq_ok, guard_eq_ok]
        exact ⟨(), hvalid, Ne.symm hsame, if_pos hfound⟩
      refine ⟨{ s with nextRelation := s.nextRelation + 1 }, ?_⟩
      rw [linkToParent]
      dsimp only
      rw [if_neg hsame]
      exact bind_eq_ok.2 ⟨e, existing_eq_ok.2 he, bind_eq_ok.2 ⟨_, hlink, rfl⟩⟩

/-- A node is merged into the entity of its name, and no observation and no relation is added. -/
structure Reabsorbed (s : Store) (now : Timestamp) (node : TreeNode) (target : Entity)
    (after : Store) : Prop where
  sound : s.Sound
  mem : target ∈ s.entities
  name : target.name = trim node.name
  entities : after.entities = s.absorbedRows now target node target.observationCount
  observations : after.observations = s.observations
  relations : after.relations = s.relations

/-- A node that is held is merged into the entity that it is held under. -/
theorem Holds.reabsorbed (h : s.Holds node parent id) (hs : s.Sound) (hc : s.Counted)
    (now : Moment) :
    ∃ target after, target.id = id ∧ s.Reabsorbed now.text node target after ∧
      s.admitNode now.text node (.create none) parent =
        .ok ({ fate := .merged, resolved := some id }, after) := by
  obtain ⟨e, he, rfl, hname⟩ := h.named
  have hnamed : s.entityNamed? (trim node.name) = some e :=
    hs.named.entityNamed?_eq_some.2 ⟨he, hname⟩
  obtain ⟨mid, hmid⟩ := absorbNode_of_said now.text h.said
  obtain ⟨_, hrelations, _⟩ := absorbNode_eq_ok hmid
  have hsound : mid.Sound := hs.writes (absorbNode_writes ⟨e, he, rfl⟩ hmid)
  obtain ⟨after, hafter⟩ :=
    linkToParent_of_linked now.text hsound.linked (hrelations.symm ▸ h.linked)
  have habsorb : s.absorbUnder now.text node e parent =
      .ok ({ fate := .merged, resolved := some e.id }, after) :=
    bind_eq_ok.2 ⟨_, hmid, bind_eq_ok.2 ⟨_, hafter, rfl⟩⟩
  refine ⟨e, after, rfl, ?_, ?_⟩
  · obtain ⟨_, hentities, hadds⟩ := absorbUnder_eq_ok habsorb
    obtain ⟨rows, hrows, hlength, _⟩ := hadds.observations
    obtain ⟨links, hlinks, hcount, _⟩ := hadds.relations
    obtain rfl : rows = [] := List.length_eq_zero_iff.1 hlength
    obtain rfl : links = [] := List.length_eq_zero_iff.1 hcount
    have hobservations : after.observations = s.observations := hrows.trans (List.append_nil _)
    have hcounted : (after.observationsOf e.id).length = e.observationCount := by
      rw [hc e he (by simp)]
      simp only [observationsOf, hobservations]
    rw [hcounted] at hentities
    exact ⟨hs, he, hname, hentities, hobservations, hlinks.trans (List.append_nil _)⟩
  · simpa [admitNode, hnamed, Decision.parent?] using habsorb

/-! ## Rows of a node that is held -/

namespace Reabsorbed

variable {now : Timestamp} {target : Entity}

/-- What merging leaves of the entity of the node, it leaves of all entities. -/
theorem map_entities {β : Type} (h : s.Reabsorbed now node target after) {f : Entity → β}
    (hsame : f (absorbed now target node target.observationCount target) = f target) :
    after.entities.map f = s.entities.map f := by
  rw [h.entities, absorbedRows, List.map_map]
  refine List.map_congr_left fun e he => ?_
  by_cases hid : e.id = target.id
  · obtain rfl := h.sound.keyed.entities.unique he h.mem hid
    simpa using hsame
  · simp [hid]

theorem lasting (h : s.Reabsorbed now node target after) :
    after.entities.map Entity.lasting = s.entities.map Entity.lasting :=
  h.map_entities rfl

/-- An entity has the aliases of a union after it, however they were spelled before. -/
theorem aliases_absorbed (now : Timestamp) (target : Entity) (node : TreeNode) (count : Nat) :
    (absorbed now target node count target).aliases =
      aliasUnionText [target.aliases.getD "", node.aliases.getD ""] := by
  unfold absorbed
  dsimp only
  split
  · rename_i hsame
    exact hsame.symm
  · rfl

/-- An entity is the one that the node was merged into, or it is as it was. -/
theorem eq_or_mem (h : s.Reabsorbed now node target after) {e : Entity} (he : e ∈ after.entities) :
    e = absorbed now target node target.observationCount target ∨
      (e ∈ s.entities ∧ e.name ≠ target.name) := by
  rw [h.entities] at he
  obtain ⟨row, hrow, rfl⟩ := List.mem_map.1 he
  by_cases hid : row.id = target.id
  · obtain rfl := h.sound.keyed.entities.unique hrow h.mem hid
    exact .inl (if_pos rfl)
  · rw [if_neg hid]
    refine .inr ⟨hrow, fun hname => hid ?_⟩
    rw [List.inj_on_of_nodup_map h.sound.named hrow h.mem hname]

end Reabsorbed

/-! ## Aliases of a node that is held -/

/-- Merging a node would change no alias. -/
def Absorbs (s : Store) (node : TreeNode) : Prop :=
  ∀ e ∈ s.entities, e.name = trim node.name →
    aliasUnionText [e.aliases.getD "", node.aliases.getD ""] = e.aliases

namespace Reabsorbed

variable {now : Timestamp} {target : Entity}

theorem absorbs (h : s.Reabsorbed now node target after) : after.Absorbs node := by
  intro e he hname
  rcases h.eq_or_mem he with rfl | ⟨_, hother⟩
  · rw [aliases_absorbed]
    exact aliasUnionText_of_known fun name hname =>
      mem_aliasUnion_of_mem (List.mem_cons_of_mem _ List.mem_cons_self) hname
  · exact absurd (hname.trans h.name.symm) hother

/-- Aliases that a union has already, it has also after further ones. -/
theorem absorbs_mono (h : s.Reabsorbed now node target after) {other : TreeNode}
    (hother : s.Absorbs other) : after.Absorbs other := by
  intro e he hname
  rcases h.eq_or_mem he with rfl | ⟨hmem, _⟩
  · have hthere : aliasUnion [target.aliases.getD "", other.aliases.getD ""] =
        aliasesOf (target.aliases.getD "") := by
      rw [← aliasesOf_aliasUnionText, hother target h.mem hname]
    rw [aliases_absorbed]
    refine aliasUnionText_of_known fun name hname => ?_
    obtain ⟨kept, hkept, hspelled⟩ : ∃ kept ∈ aliasUnion
        [target.aliases.getD "", other.aliases.getD ""], lower kept = lower name :=
      mem_aliasUnion_of_mem (List.mem_cons_of_mem _ List.mem_cons_self) hname
    rw [hthere] at hkept
    obtain ⟨kept', hkept', hspelled'⟩ : ∃ kept' ∈ aliasUnion
        [target.aliases.getD "", node.aliases.getD ""], lower kept' = lower kept :=
      mem_aliasUnion_of_mem List.mem_cons_self hkept
    exact ⟨kept', hkept', hspelled'.trans hspelled⟩
  · exact hother e hmem hname

theorem undated (h : s.Reabsorbed now node target after) (habsorbs : s.Absorbs node) :
    after.entities.map Entity.undated = s.entities.map Entity.undated := by
  refine h.map_entities ?_
  simp [Entity.undated, absorbed, habsorbs target h.mem h.name]

end Reabsorbed

end Store

/-! ## What the visits leave -/

namespace Visit

variable {now : Moment} {s t : Store} {visits : List (Visit now.text [])}

theorem sound_after (v : Visit now.text []) (h : v.before.Sound) : v.after.Sound := by
  rcases v.cases with ⟨_, hafter, _⟩ | ⟨_, effect, houtcome, _, _⟩
  · rwa [hafter]
  · exact h.writes (Store.admitNode_writes houtcome)

theorem counted_after (v : Visit now.text []) (h : v.before.Counted) : v.after.Counted := by
  rcases v.cases with ⟨_, hafter, _⟩ | ⟨_, effect, houtcome, _, _⟩
  · rwa [hafter]
  · exact Store.admitNode_counted h houtcome

theorem Chained.sound (h : Chained s visits) (hs : s.Sound) : (storeAfter s visits).Sound :=
  h.relates (R := fun a b => a.Sound → b.Sound) (fun _ ha => ha) (fun hab hbc ha => hbc (hab ha))
    (fun v _ => v.sound_after) hs

theorem Chained.counted (h : Chained s visits) (hs : s.Counted) :
    (storeAfter s visits).Counted :=
  h.relates (R := fun a b => a.Counted → b.Counted) (fun _ ha => ha)
    (fun hab hbc ha => hbc (hab ha)) (fun v _ => v.counted_after) hs

/-- A store holds what the node of a visit says under the entity that the visit touched. -/
structure KeptIn (v : Visit now.text []) (t : Store) (id : Id) : Prop where
  resolved : v.resolved = some id
  touched : v.touched? = some id
  holds : t.Holds v.node v.treeParent id

theorem keptIn_after {v : Visit now.text []} (hok : v.failure? = none) :
    ∃ id, v.KeptIn v.after id := by
  rcases v.cases with ⟨_, _, cause, _, hfailed⟩ | ⟨_, effect, _, heffect, hadmitted⟩
  · rw [hok] at hfailed
    cases hfailed
  · obtain ⟨id, hresolved, hfate, hholds⟩ := hadmitted.holds
    exact ⟨id, by simp [Visit.resolved, heffect, hresolved],
      by simp [touched?, fate?, Visit.resolved, heffect, hresolved, hfate], hholds⟩

/-- After an import without a failure everything that its nodes say is held. -/
theorem Chained.keptIn (h : Chained s visits) (hs : s.Sound)
    (hok : ∀ v ∈ visits, v.failure? = none) :
    ∀ v ∈ visits, ∃ id, v.KeptIn (storeAfter s visits) id := by
  intro v hv
  obtain ⟨id, hkept⟩ := keptIn_after (hok v hv)
  obtain ⟨earlier, later, rfl⟩ := List.append_of_mem hv
  obtain ⟨hearlier, hbefore, hlater⟩ := chained_append.1 h
  have hsound : v.after.Sound := v.sound_after (hbefore ▸ hearlier.sound hs)
  have hundamaged : v.after.Undamaged (later.filterMap touched?) (storeAfter v.after later) :=
    hlater.undamaged hsound.keyed fun _ hid => hid
  rw [storeAfter_append, storeAfter]
  exact ⟨id, hkept.resolved, hkept.touched, hkept.holds.mono hundamaged⟩

/-! ## Visiting again -/

/-- A visit merges its node and adds no observation and no relation. -/
def Reabsorbs {now : Timestamp} (w : Visit now []) : Prop :=
  ∃ target, w.before.Reabsorbed now w.node target w.after ∧
    w.effect? = some { fate := .merged, resolved := some target.id }

/-- The visits of one import merge their nodes into the entities that those of another touched. -/
structure Again {now now' : Timestamp} (first : List (Visit now [])) (second : List (Visit now' [])) :
    Prop where
  reabsorbs : ∀ w ∈ second, w.Reabsorbs
  touched : second.map touched? = first.map touched?

theorem KeptIn.again {v : Visit now.text []} {id : Id} (h : v.KeptIn t id) (hs : t.Sound)
    (hc : t.Counted) (now' : Moment) :
    let w : Visit now'.text [] := { v with before := t }
    w.Reabsorbs ∧ w.resolved = v.resolved ∧ w.touched? = v.touched? := by
  intro w
  obtain ⟨target, after, rfl, hreabsorbed, hok⟩ := h.holds.reabsorbed hs hc now'
  have houtcome : w.outcome = .ok ({ fate := .merged, resolved := some target.id }, after) := hok
  have heffect : w.effect? = some { fate := .merged, resolved := some target.id } := by
    rw [effect?, houtcome]
  have hafter : w.after = after := by
    rw [Visit.after, houtcome]
  refine ⟨⟨target, by rw [hafter]; exact hreabsorbed, heffect⟩, ?_, ?_⟩
  · rw [h.resolved, resolved_of_effect heffect]
  · rw [h.touched]
    simp [touched?, fate?, Visit.resolved, heffect]

/-- What is held stays held, whatever is visited. -/
theorem KeptIn.storeAfter {now' : Moment} {visits : List (Visit now'.text [])}
    {v : Visit now.text []} (h : ∃ id, v.KeptIn t id) (hs : t.Sound) (hchained : Chained t visits) :
    ∃ id, v.KeptIn (storeAfter t visits) id := by
  obtain ⟨id, hid⟩ := h
  have hundamaged : t.Undamaged (visits.filterMap touched?) (Visit.storeAfter t visits) :=
    hchained.undamaged hs.keyed fun _ hid => hid
  exact ⟨id, hid.resolved, hid.touched, hid.holds.mono hundamaged⟩

theorem Again.append {now' : Moment} {first later : List (Visit now.text [])}
    {first' later' : List (Visit now'.text [])} (h : Again first first') (hlater : Again later later') :
    Again (first ++ later) (first' ++ later') := by
  constructor
  · intro w hw
    rcases List.mem_append.1 hw with hw | hw
    · exact h.reabsorbs w hw
    · exact hlater.reabsorbs w hw
  · rw [List.map_append, List.map_append, h.touched, hlater.touched]

mutual
/-- Where the nodes of a tree are held, walking the tree merges them again. -/
theorem again_ofTree (now' : Moment) (path : NodePath) (treeParent : Option Id) (s t : Store)
    (hs : t.Sound) (hc : t.Counted) :
    (node : TreeNode) → (∀ v ∈ ofTree now.text [] path treeParent s node, ∃ id, v.KeptIn t id) →
      Again (ofTree now.text [] path treeParent s node)
        (ofTree now'.text [] path treeParent t node)
  | ⟨name, entityType, aliases, description, observations, relationType, children⟩ => by
    let node : TreeNode :=
      ⟨name, entityType, aliases, description, observations, relationType, children⟩
    let v : Visit now.text [] := { node, path, treeParent, before := s }
    let w : Visit now'.text [] := { node, path, treeParent, before := t }
    intro hkept
    rw [ofTree] at hkept ⊢
    rw [ofTree]
    obtain ⟨id, hv⟩ := hkept v List.mem_cons_self
    obtain ⟨hreabsorbs, hresolved, htouched⟩ :
        w.Reabsorbs ∧ w.resolved = v.resolved ∧ w.touched? = v.touched? := hv.again hs hc now'
    have hfirst : Again [v] [w] := ⟨by simpa using hreabsorbs, congrArg (fun id => [id]) htouched⟩
    have hrest : Again (ofTrees now.text [] path v.resolved 0 v.after children)
        (ofTrees now'.text [] path w.resolved 0 w.after children) := by
      rw [hresolved]
      refine again_ofTrees now' path _ 0 _ _ (w.sound_after hs) (w.counted_after hc) children ?_
      intro u hu
      have hchained : Chained t [w] := ⟨rfl, trivial⟩
      exact KeptIn.storeAfter (hkept u (List.mem_cons_of_mem _ hu)) hs hchained
    exact hfirst.append hrest

/-- Where the nodes of the trees below a node are held, walking them merges them again. -/
theorem again_ofTrees (now' : Moment) (path : NodePath) (treeParent : Option Id) (index : Nat)
    (s t : Store) (hs : t.Sound) (hc : t.Counted) :
    (nodes : List TreeNode) →
      (∀ v ∈ ofTrees now.text [] path treeParent index s nodes, ∃ id, v.KeptIn t id) →
      Again (ofTrees now.text [] path treeParent index s nodes)
        (ofTrees now'.text [] path treeParent index t nodes)
  | [] => by
    intro _
    rw [ofTrees, ofTrees]
    exact ⟨by simp, rfl⟩
  | node :: rest => by
    intro hkept
    rw [ofTrees] at hkept ⊢
    rw [ofTrees]
    have hchained : Chained t (ofTree now'.text [] (path.child index) treeParent t node) :=
      chained_ofTree (path.child index) treeParent t node
    refine (again_ofTree now' (path.child index) treeParent s t hs hc node ?_).append
      (again_ofTrees now' path treeParent (index + 1) _ _ (hchained.sound hs) (hchained.counted hc)
        rest ?_)
    · exact fun u hu => hkept u (List.mem_append_left _ hu)
    · exact fun u hu => KeptIn.storeAfter (hkept u (List.mem_append_right _ hu)) hs hchained
end

theorem again_ofRoots (now' : Moment) (index : Nat) (s t : Store) (hs : t.Sound) (hc : t.Counted)
    (nodes : List TreeNode)
    (hkept : ∀ v ∈ ofRoots now.text [] index s nodes, ∃ id, v.KeptIn t id) :
    Again (ofRoots now.text [] index s nodes) (ofRoots now'.text [] index t nodes) := by
  induction nodes generalizing index s t with
  | nil => exact ⟨by simp [ofRoots], rfl⟩
  | cons node rest ih =>
    rw [ofRoots] at hkept ⊢
    rw [ofRoots]
    have hchained : Chained t (ofTree now'.text [] { root := index } none t node) :=
      chained_ofTree { root := index } none t node
    refine (again_ofTree now' { root := index } none s t hs hc node ?_).append
      (ih (index + 1) _ _ (hchained.sound hs) (hchained.counted hc) ?_)
    · exact fun u hu => hkept u (List.mem_append_left _ hu)
    · exact fun u hu => KeptIn.storeAfter (hkept u (List.mem_append_right _ hu)) hs hchained

/-! ## What visiting again leaves -/

section Reabsorbs

variable {now : Timestamp} {visits : List (Visit now [])}

theorem Reabsorbs.failure?_eq_none {w : Visit now []} (h : w.Reabsorbs) : w.failure? = none := by
  obtain ⟨_, _, hmerged⟩ := h
  rcases w.cases with ⟨heffect, _⟩ | ⟨hnone, _⟩
  · rw [hmerged] at heffect
    cases heffect
  · exact hnone

theorem Reabsorbs.fate?_eq {w : Visit now []} (h : w.Reabsorbs) : w.fate? = some .merged := by
  obtain ⟨_, _, heffect⟩ := h
  rw [fate?, heffect]
  rfl

/-- Merging nodes again leaves both other tables, and of the entities all but aliases and moments. -/
theorem Chained.lasting (h : Chained t visits) (hall : ∀ w ∈ visits, w.Reabsorbs) :
    (storeAfter t visits).entities.map Entity.lasting = t.entities.map Entity.lasting ∧
      (storeAfter t visits).observations = t.observations ∧
      (storeAfter t visits).relations = t.relations := by
  refine h.relates (R := fun a b => b.entities.map Entity.lasting = a.entities.map Entity.lasting ∧
    b.observations = a.observations ∧ b.relations = a.relations) (fun _ => ⟨rfl, rfl, rfl⟩) ?_ ?_
  · rintro a b c ⟨hentities, hobservations, hrelations⟩ ⟨hentities', hobservations', hrelations'⟩
    exact ⟨hentities'.trans hentities, hobservations'.trans hobservations,
      hrelations'.trans hrelations⟩
  · intro w hw
    obtain ⟨_, hreabsorbed, _⟩ := hall w hw
    exact ⟨hreabsorbed.lasting, hreabsorbed.observations, hreabsorbed.relations⟩

theorem Chained.absorbs_mono (h : Chained t visits) (hall : ∀ w ∈ visits, w.Reabsorbs)
    {node : TreeNode} (habsorbs : t.Absorbs node) : (storeAfter t visits).Absorbs node := by
  refine h.relates (R := fun a b => a.Absorbs node → b.Absorbs node) (fun _ ha => ha)
    (fun hab hbc ha => hbc (hab ha)) (fun w hw => ?_) habsorbs
  obtain ⟨_, hreabsorbed, _⟩ := hall w hw
  exact hreabsorbed.absorbs_mono

/-- Nodes that were merged again would change no alias any more. -/
theorem Chained.absorbs (h : Chained t visits) (hall : ∀ w ∈ visits, w.Reabsorbs) :
    ∀ w ∈ visits, (storeAfter t visits).Absorbs w.node := by
  intro w hw
  obtain ⟨_, hreabsorbed, _⟩ := hall w hw
  obtain ⟨earlier, later, rfl⟩ := List.append_of_mem hw
  obtain ⟨_, _, hlater⟩ := chained_append.1 h
  rw [storeAfter_append, storeAfter]
  exact hlater.absorbs_mono
    (fun u hu => hall u (List.mem_append_right _ (List.mem_cons_of_mem _ hu))) hreabsorbed.absorbs

/-- Merging nodes that change no alias leaves all of the entities but moments. -/
theorem Chained.undated (h : Chained t visits) (hall : ∀ w ∈ visits, w.Reabsorbs)
    (habsorbs : ∀ w ∈ visits, t.Absorbs w.node) :
    (storeAfter t visits).entities.map Entity.undated = t.entities.map Entity.undated := by
  induction visits generalizing t with
  | nil => rfl
  | cons w rest ih =>
    obtain ⟨rfl, hrest⟩ := h
    obtain ⟨_, hreabsorbed, _⟩ := hall w List.mem_cons_self
    have hfirst := hreabsorbed.undated (habsorbs w List.mem_cons_self)
    have hlater := ih hrest (fun u hu => hall u (List.mem_cons_of_mem _ hu)) fun u hu =>
      hreabsorbed.absorbs_mono (habsorbs u (List.mem_cons_of_mem _ hu))
    exact hlater.trans hfirst

end Reabsorbs

end Visit

/-! ## The reports -/

namespace Store

variable {s : Store} {now now' : Moment} {document : TreeDocument}

/-- The visits of an import that merge every node again leave nothing but merged nodes to report. -/
theorem report_of_reabsorbs (h : ∀ w ∈ s.visits now.text [] document, w.Reabsorbs) :
    let report := s.visitsReport now.text [] document
    report.created = 0 ∧ report.merged = document.size ∧ report.observations = 0 ∧
      report.relations = 0 := by
  intro report
  have hfates := ImportReport.count_foldl {} (s.visits now.text [] document)
  have hcreated : (s.visits now.text [] document).countP (fun w => w.fate? = some .created) = 0 := by
    rw [List.countP_eq_zero]
    intro w hw
    simp [(h w hw).fate?_eq]
  have hmerged : (s.visits now.text [] document).countP (fun w => w.fate? = some .merged) =
      document.size := by
    rw [← @length_visits s now.text [], List.countP_eq_length]
    intro w hw
    simp [(h w hw).fate?_eq]
  obtain ⟨_, hobservations, hrelations⟩ := Visit.Chained.lasting chained_visits h
  have hempty : ImportReport.Gained s {} s := ⟨rfl, rfl, rfl⟩
  have hgained : report.Gained s (Visit.storeAfter s (s.visits now.text [] document)) :=
    hempty.foldl chained_visits
  refine ⟨?_, ?_, ?_, ?_⟩
  · have hcount := hfates .created
    rw [hcreated] at hcount
    exact hcount
  · have hcount := hfates .merged
    rw [hmerged] at hcount
    exact hcount.trans (Nat.zero_add _)
  · have hlength := hgained.observations
    rw [hobservations] at hlength
    omega
  · have hlength := hgained.relations
    rw [hrelations] at hlength
    omega

end Store

section Repetition

variable {s : Store} {now : Moment} {document : TreeDocument} {mode : ImportMode}

/-- After an import without a failure, the visits of the next import of the document merge every node
again. -/
theorem again_of_success (hs : s.Sound) (hc : s.Counted) (now' : Moment)
    (hok : (s.runImport now.text document [] mode).1.success = true) :
    Visit.Again (s.visits now.text [] document)
      ((s.runImport now.text document [] mode).2.visits now'.text [] document) := by
  obtain ⟨hsucceed, hresult⟩ := runImport_of_success hok
  have hchained : Visit.Chained s (s.visits now.text [] document) := Store.chained_visits
  rw [hresult]
  exact Visit.again_ofRoots now' 0 s _ (hchained.sound hs) (hchained.counted hc) document.roots
    (hchained.keptIn hs hsucceed)

/-- After an import of merged nodes, none of the nodes of the document would change an alias. -/
theorem absorbs_of_reabsorbs (hok : (s.runImport now.text document [] mode).1.success = true)
    (hall : ∀ w ∈ s.visits now.text [] document, w.Reabsorbs) :
    ∀ place ∈ document.places, (s.runImport now.text document [] mode).2.Absorbs place.2 := by
  obtain ⟨_, hresult⟩ := runImport_of_success hok
  intro place hplace
  rw [← @Store.places_visits s now.text []] at hplace
  obtain ⟨w, hw, rfl⟩ := List.mem_map.1 hplace
  rw [hresult]
  exact Visit.Chained.absorbs Store.chained_visits hall w hw

/-- An import of a document against the import of the same document before it. -/
structure Repeated (document : TreeDocument) (first second : ImportReport × Store) : Prop where
  success : second.1.success = true
  /-- Nothing is created. -/
  created : second.1.created = 0 ∧ second.1.observations = 0 ∧ second.1.relations = 0
  /-- Every node is merged, into the entities of the import before. -/
  merged : second.1.merged = document.size
  touched : second.1.touched = first.1.touched
  observations : second.2.observations = first.2.observations
  relations : second.2.relations = first.2.relations
  /-- Entities stay in their order, with all but aliases and the moment of the last change. -/
  entities : second.2.entities.map Entity.lasting = first.2.entities.map Entity.lasting

/-- An import without a failure is repeated by the next import of the document. -/
theorem repeated_of_success (hs : s.Sound) (hc : s.Counted) (now' : Moment) (mode' : ImportMode)
    (hok : (s.runImport now.text document [] mode).1.success = true) :
    Repeated document (s.runImport now.text document [] mode)
      ((s.runImport now.text document [] mode).2.runImport now'.text document [] mode') := by
  obtain ⟨_, hfirst⟩ := runImport_of_success hok
  obtain ⟨hall, hsame⟩ := again_of_success hs hc now' hok
  have hsuccess := success_of_visits mode' fun w hw => (hall w hw).failure?_eq_none
  obtain ⟨_, hsecond⟩ := runImport_of_success hsuccess
  obtain ⟨hcreated, hmerged, hobserved, hrelated⟩ := Store.report_of_reabsorbs hall
  obtain ⟨hentities, hobservations, hrelations⟩ := Visit.Chained.lasting Store.chained_visits hall
  constructor
  case success => exact hsuccess
  case created =>
    rw [hsecond]
    exact ⟨hcreated, hobserved, hrelated⟩
  case merged =>
    rw [hsecond]
    exact hmerged
  case touched =>
    have hids := congrArg (List.filterMap id) hsame
    rw [List.filterMap_map, List.filterMap_map] at hids
    rw [hsecond, touched_visitsReport, hfirst, touched_visitsReport]
    rw [hfirst] at hids
    exact congrArg distinct hids
  case observations =>
    rw [hsecond]
    exact hobservations
  case relations =>
    rw [hsecond]
    exact hrelations
  case entities =>
    rw [hsecond]
    exact hentities

/-- After an import without a failure, importing the same document again succeeds, merges every node
into the entity that it touched before, and adds no row. Of the rows that are there it changes at
most the aliases of entities and the moment of their last change; a third import changes no alias. -/
theorem repeated_import (h : Reachable s) (now' now'' : Moment) {mode' mode'' : ImportMode}
    (hok : (s.runImport now.text document [] mode).1.success = true) :
    let first := s.runImport now.text document [] mode
    let second := first.2.runImport now'.text document [] mode'
    let third := second.2.runImport now''.text document [] mode''
    Repeated document first second ∧ Repeated document second third ∧
      third.2.entities.map Entity.undated = second.2.entities.map Entity.undated := by
  intro first second third
  have hs : first.2.Sound := h.sound.writes (Store.runImport_writes now document [] mode s)
  have hc : first.2.Counted := Store.runImport_counted h.counted
  have hsecond : Repeated document first second :=
    repeated_of_success h.sound h.counted now' mode' hok
  have hthird : Repeated document second third :=
    repeated_of_success hs hc now'' mode'' hsecond.success
  refine ⟨hsecond, hthird, ?_⟩
  obtain ⟨hall, _⟩ := again_of_success h.sound h.counted now' hok
  obtain ⟨hall', _⟩ := again_of_success hs hc now'' hsecond.success
  have habsorbs : ∀ place ∈ document.places, second.2.Absorbs place.2 :=
    absorbs_of_reabsorbs hsecond.success hall
  have hundated : (Visit.storeAfter second.2
      (second.2.visits now''.text [] document)).entities.map Entity.undated =
        second.2.entities.map Entity.undated := by
    refine Visit.Chained.undated Store.chained_visits hall' fun w hw => habsorbs w.place ?_
    rw [← @Store.places_visits second.2 now''.text []]
    exact List.mem_map_of_mem hw
  have hresult : third.2 = Visit.storeAfter second.2 (second.2.visits now''.text [] document) :=
    congrArg Prod.snd (runImport_of_success hthird.success).2
  rw [hresult]
  exact hundated

/-- Two nodes of one name with aliases as they were typed and an observation said twice, a child of
the second under the first that is linked to itself, and a child linked by a type of its own. -/
theorem repeated_of_namesakes :
    let now : Moment := .ofNanoseconds 0
    let later : Moment := .ofNanoseconds 1000000000
    let s := Store.run .empty [
      (now, .addEntity { name := "known", entityType := "Note", aliases := some "K"
                         observations := ["seen"] })]
    let document : TreeDocument := { roots := [
      { name := "twice", entityType := "Note", aliases := some "b ;A,,"
        observations := [{ content := "said" }, { content := "said" }]
        children := [
          { name := "twice ", entityType := "Note", aliases := some "a|c" },
          { name := "known", entityType := "Other", relationType := some "uses"
            observations := [{ content := "seen" }, { content := "new" }] }] }] }
    let first := s.runImport now.text document [] .atomic
    let second := first.2.runImport later.text document [] .bestEffort
    let third := second.2.runImport later.text document [] .atomic
    first.1.success = true ∧ Repeated document first second ∧ Repeated document second third ∧
      third.2.entities.map Entity.undated = second.2.entities.map Entity.undated ∧
      (first.1.created, first.1.merged, second.1.merged, second.1.touched) = (1, 2, 3, [2, 1]) ∧
      first.2.entities.map Entity.aliases = [some "K", some "b, A, c"] := by
  intro now later s document first second third
  have hs : Reachable s := Reachable.empty.run _
  have hok : first.1.success = true := by decide +kernel
  have hrows : (first.1.created, first.1.merged, second.1.merged, second.1.touched) =
      (1, 2, 3, [2, 1]) := by decide +kernel
  have haliases : first.2.entities.map Entity.aliases = [some "K", some "b, A, c"] := by
    decide +kernel
  -- unification must not run the imports
  clear_value s document
  obtain ⟨hsecond, hthird, hundated⟩ := repeated_import hs later later hok
  exact ⟨hok, hsecond, hthird, hundated, hrows, haliases⟩

end Repetition
end MemoryGraph
