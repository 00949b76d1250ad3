-- SUMMARY: What applying one node of an import does to the tables, said once for all its decisions.
import MemoryGraph.Proofs.Integrity

/-!
# Applying a node

A node is skipped, merged into an entity that is there, or created. The last two
add rows and change the row of one entity; nothing else happens to the tables.
What holds of an import is derived from this description of one node.
-/
namespace MemoryGraph

open Text

/-! ## What a node asks for -/

/-- The type of the relation that links the entity of a node to its parent. -/
def TreeNode.relationToParent (node : TreeNode) : String :=
  (nonBlank? node.relationType).getD usualUpwardType

/-- The entity that a node is created as. -/
def TreeNode.newEntity (now : Timestamp) (id : Id) (node : TreeNode) : Entity where
  id := id
  name := trim node.name
  entityType := trim node.entityType
  aliases := nonBlank? node.aliases
  description := nonBlank? node.description
  createdAt := now
  updatedAt := now

@[simp] theorem TreeNode.newEntity_name {now : Timestamp} {id : Id} {node : TreeNode} :
    (node.newEntity now id).name = trim node.name :=
  rfl

namespace Store

theorem trim_linkType (node : TreeNode) : trim (linkType node) = node.relationToParent := by
  have husual : trim usualUpwardType = usualUpwardType := by decide
  unfold linkType TreeNode.relationToParent
  cases node.relationType with
  | none => exact husual
  | some relationType =>
    by_cases hblank : allBlank relationType = true
    · simp [nonBlank?, hblank, husual]
    · simp [nonBlank?, hblank]

/-- The entity that a node is merged into: the one that its decision names, or for a node that is to
be created the one of its name. -/
def mergeTarget? (s : Store) (node : TreeNode) : Decision → Option Entity
  | .create _ => s.entityNamed? (trim node.name)
  | .merge id _ | .addRelation id _ => s.entity? id
  | .skip _ _ => none

theorem mem_of_mergeTarget? {s : Store} {node : TreeNode} {decision : Decision} {target : Entity}
    (h : s.mergeTarget? node decision = some target) : target ∈ s.entities := by
  cases decision with
  | create parent => exact mem_of_entityNamed? h
  | merge id parent => exact mem_of_entity? h
  | skip target parent => cases h
  | addRelation id parent => exact mem_of_entity? h

/-! ## Observations -/

/-- Rows that note drafts for an entity, in their order. -/
structure Noted (now : Timestamp) (id : Id) (drafts : List ObservationDraft)
    (rows : List Observation) : Prop where
  owner : ∀ row ∈ rows, row.entityId = id
  said : rows.map (fun row => (row.content, row.createdAt)) =
    drafts.map fun draft => (draft.content, draft.momentOr now)

theorem Noted.contents {now : Timestamp} {id : Id} {drafts : List ObservationDraft}
    {rows : List Observation} (h : Noted now id drafts rows) :
    rows.map (·.content) = drafts.map (·.content) := by
  have hfirst := congrArg (List.map Prod.fst) h.said
  simpa only [List.map_map, Function.comp_def] using hfirst

theorem Noted.exists_draft {now : Timestamp} {id : Id} {drafts : List ObservationDraft}
    {rows : List Observation} (h : Noted now id drafts rows) {row : Observation} (hrow : row ∈ rows) :
    ∃ draft ∈ drafts, (draft.content, draft.momentOr now) = (row.content, row.createdAt) := by
  have htold : (row.content, row.createdAt) ∈
      drafts.map fun draft => (draft.content, draft.momentOr now) :=
    h.said ▸ List.mem_map_of_mem hrow
  exact List.mem_map.1 htold

theorem noteRows_noted (now : Timestamp) (id next : Id) (drafts : List ObservationDraft) :
    Noted now id drafts (noteRows now id next drafts) :=
  ⟨fun _ => noteRows_owner, noteRows_said now id next drafts⟩

theorem appendObservations_eq_ok {now : Timestamp} {id : Id} {drafts : List ObservationDraft}
    {s after : Store} {rows : List Observation}
    (h : appendObservations now id drafts s = .ok (rows, after)) :
    Noted now id drafts rows ∧ after = { s with
      observations := s.observations ++ rows
      nextObservation := s.nextObservation + rows.length } := by
  rw [appendObservations_eq, bind_eq_ok] at h
  obtain ⟨_, _, h⟩ := h
  cases h
  exact ⟨noteRows_noted now id s.nextObservation drafts, rfl⟩

/-- The contents of unseen drafts are new and do not repeat. -/
theorem unseen_contents (known : List String) (drafts : List ObservationDraft) :
    ((unseen known drafts).map (·.content)).Nodup ∧
      ∀ draft ∈ unseen known drafts, draft.content ∉ known := by
  induction drafts generalizing known with
  | nil => simp [unseen]
  | cons draft rest ih =>
    rw [unseen]
    split
    · exact ih known
    · rename_i hnew
      obtain ⟨hnodup, hrest⟩ := ih (draft.content :: known)
      constructor
      · rw [List.map_cons, List.nodup_cons]
        refine ⟨?_, hnodup⟩
        intro hagain
        obtain ⟨other, hother, hsame⟩ := List.mem_map.1 hagain
        exact hrest other hother (hsame ▸ List.mem_cons_self)
      · intro other hother
        rcases List.mem_cons.1 hother with rfl | hother
        · simpa using hnew
        · exact fun hknown => hrest other hother (List.mem_cons_of_mem _ hknown)

/-- Drafts are all passed over when each says what is known already. -/
theorem unseen_eq_nil {known : List String} {drafts : List ObservationDraft} :
    unseen known drafts = [] ↔ ∀ draft ∈ drafts, draft.content ∈ known := by
  induction drafts with
  | nil => simp [unseen]
  | cons draft rest ih =>
    rw [unseen]
    split
    · rename_i hknown
      simpa [ih] using fun _ => List.contains_iff_mem.1 hknown
    · rename_i hnew
      simpa using fun hknown => absurd hknown (by simpa using hnew)

/-- A draft says what is known already, or what one of the unseen drafts says. -/
theorem mem_unseen {known : List String} {drafts : List ObservationDraft} {draft : ObservationDraft}
    (h : draft ∈ drafts) :
    draft.content ∈ known ∨ draft.content ∈ (unseen known drafts).map (·.content) := by
  induction drafts generalizing known with
  | nil => cases h
  | cons first rest ih =>
    rw [unseen]
    split
    · rename_i hknown
      rcases List.mem_cons.1 h with rfl | h
      · exact .inl (List.contains_iff_mem.1 hknown)
      · exact ih h
    · rcases List.mem_cons.1 h with rfl | h
      · exact .inr List.mem_cons_self
      · rcases @ih (first.content :: known) h with hknown | hlater
        · rcases List.mem_cons.1 hknown with hsame | hknown
          · rw [hsame]
            exact .inr List.mem_cons_self
          · exact .inl hknown
        · exact .inr (List.mem_cons_of_mem _ hlater)

/-! ## Links -/

/-- Linking the entity of a node to its parent adds the relation between them, unless it is there
already or the two are the same. -/
theorem linkToParent_eq_ok {now : Timestamp} {node : TreeNode} {id : Id} {parent : Option Id}
    {s after : Store} {count : Nat} (h : s.linkToParent now node id parent = .ok (count, after)) :
    ∃ links next, after = { s with relations := s.relations ++ links, nextRelation := next } ∧
      links.length = count ∧
      (∀ r ∈ links, ∃ p, parent = some p ∧ id ≠ p ∧ r.triple = (id, p, node.relationToParent)) ∧
      ∀ p, parent = some p → id ≠ p → Field.relationType.validate (linkType node) = .ok () ∧
        (id, p, node.relationToParent) ∈ after.relations.map Relation.triple := by
  unfold linkToParent at h
  split at h
  · cases h
    exact ⟨[], s.nextRelation, by simp, rfl, by simp, by simp⟩
  · rename_i p
    split at h
    · rename_i hsame
      cases h
      refine ⟨[], s.nextRelation, by simp, rfl, by simp, ?_⟩
      rintro _ ⟨⟩ hne
      exact absurd hsame.symm hne
    · rename_i hne
      simp only [bind_eq_ok, Prod.exists] at h
      obtain ⟨_, _, added, _, hlink, h⟩ := h
      cases h
      have hthere : (id, p, node.relationToParent) ∈ after.relations.map Relation.triple := by
        rw [← trim_linkType]
        exact ((appendRelation_triples hlink).2.2 _).2 (.inr rfl)
      obtain ⟨hvalid, _, ⟨rfl, _, rfl⟩ | ⟨row, rfl, rfl, _, _, _, rfl⟩⟩ :=
        appendRelation_cases hlink
      · refine ⟨[], s.nextRelation + 1, by simp, rfl, by simp, ?_⟩
        rintro _ ⟨⟩ _
        exact ⟨hvalid, hthere⟩
      · refine ⟨[_], _, rfl, rfl, ?_, ?_⟩
        · intro r hr
          rw [List.mem_singleton.1 hr, ← trim_linkType]
          exact ⟨p, rfl, Ne.symm hne, rfl⟩
        · rintro _ ⟨⟩ _
          exact ⟨hvalid, hthere⟩

/-! ## Rows of a node -/

/-- The row of an entity that a node was merged into, with its observations counted again. -/
def absorbed (now : Timestamp) (target : Entity) (node : TreeNode) (count : Nat) (e : Entity) :
    Entity :=
  let aliases := aliasUnionText [target.aliases.getD "", node.aliases.getD ""]
  { e with
    aliases := if aliases = target.aliases then e.aliases else aliases
    observationCount := count
    updatedAt := now }

/-- The entities after a node was merged into one of them. -/
def absorbedRows (s : Store) (now : Timestamp) (target : Entity) (node : TreeNode) (count : Nat) :
    List Entity :=
  s.entities.map fun e => if e.id = target.id then absorbed now target node count e else e

/-- The entities after one was created, with its observations counted. -/
def createdRows (s : Store) (now : Timestamp) (row : Entity) (count : Nat) : List Entity :=
  (s.entities ++ [row]).map fun e =>
    if e.id = row.id then { e with observationCount := count, updatedAt := now } else e

section Rows

variable {s : Store} {now : Timestamp} {target row e : Entity} {node : TreeNode} {count : Nat}

@[simp] theorem absorbed_id : (absorbed now target node count e).id = e.id := by
  simp only [absorbed]

@[simp] theorem absorbed_name : (absorbed now target node count e).name = e.name := by
  simp only [absorbed]

theorem map_id_absorbedRows :
    (s.absorbedRows now target node count).map Entity.id = s.entities.map Entity.id := by
  unfold absorbedRows
  rw [List.map_map]
  refine List.map_congr_left fun e _ => ?_
  simp only [Function.comp_apply]
  split <;> rfl

theorem map_id_createdRows :
    (s.createdRows now row count).map Entity.id = s.entities.map Entity.id ++ [row.id] := by
  have hid : ∀ e ∈ s.entities ++ [row],
      (Entity.id ∘ fun e =>
        if e.id = row.id then { e with observationCount := count, updatedAt := now } else e) e =
      e.id := by
    intro e _
    simp only [Function.comp_apply]
    split <;> rfl
  unfold createdRows
  rw [List.map_map, List.map_congr_left hid, List.map_append, List.map_singleton]

theorem absorbed_mem_absorbedRows (h : target ∈ s.entities) :
    absorbed now target node count target ∈ s.absorbedRows now target node count :=
  List.mem_map.2 ⟨target, h, if_pos rfl⟩

theorem mem_absorbedRows (h : e ∈ s.entities) (hid : e.id ≠ target.id) :
    e ∈ s.absorbedRows now target node count :=
  List.mem_map.2 ⟨e, h, if_neg hid⟩

theorem counted_mem_createdRows :
    { row with observationCount := count, updatedAt := now } ∈ s.createdRows now row count :=
  List.mem_map.2 ⟨row, List.mem_append_right _ List.mem_cons_self, if_pos rfl⟩

theorem mem_createdRows (h : e ∈ s.entities) (hid : e.id ≠ row.id) :
    e ∈ s.createdRows now row count :=
  List.mem_map.2 ⟨e, List.mem_append_left _ h, if_neg hid⟩

end Rows

/-- Merging a node into an entity changes the row of this entity and notes what is new. -/
theorem absorbNode_eq_ok {now : Timestamp} {target : Entity} {node : TreeNode} {s after : Store}
    {count : Nat} (h : s.absorbNode now target node = .ok (count, after)) :
    after.entities = s.absorbedRows now target node (after.observationsOf target.id).length ∧
    after.relations = s.relations ∧
    ∃ rows, after.observations = s.observations ++ rows ∧ rows.length = count ∧
      Noted now target.id (unseen (s.contentsOf target.id) node.observations) rows := by
  simp only [absorbNode, bind_eq_ok, Prod.exists] at h
  obtain ⟨rows, mid, hrows, h⟩ := h
  cases h
  split at hrows
  · rename_i hsame
    obtain ⟨hnoted, rfl⟩ := appendObservations_eq_ok hrows
    refine ⟨?_, rfl, rows, rfl, rfl, hnoted⟩
    simp only [absorbedRows, absorbed, hsame, if_true]
    rfl
  · rename_i hother
    obtain ⟨hnoted, rfl⟩ := appendObservations_eq_ok hrows
    refine ⟨?_, rfl, rows, rfl, rfl, hnoted⟩
    simp only [absorbedRows, absorbed, hother, if_false, refreshCount, modifyEntity, List.map_map]
    refine List.map_congr_left fun e _ => ?_
    by_cases hid : e.id = target.id
    · simp [hid]
      rfl
    · simp [hid]

/-- Creating the entity of a node adds its row and notes all its observations. -/
theorem insertNode_eq_ok {now : Timestamp} {node : TreeNode} {s after : Store} {row : Entity}
    {count : Nat} (h : s.insertNode now node = .ok (row, count, after)) :
    row = node.newEntity now s.nextEntity ∧
    after.entities = s.createdRows now row (after.observationsOf row.id).length ∧
    after.relations = s.relations ∧
    ∃ rows, after.observations = s.observations ++ rows ∧ rows.length = count ∧
      Noted now row.id node.observations rows := by
  simp only [insertNode, bind_eq_ok, Prod.exists] at h
  obtain ⟨_, first, hrow, rows, second, hrows, h⟩ := h
  cases h
  obtain ⟨_, _, rfl, rfl⟩ := appendEntity_eq_ok hrow
  obtain ⟨hnoted, rfl⟩ := appendObservations_eq_ok hrows
  exact ⟨rfl, rfl, rfl, rows, rfl, rfl, hnoted⟩

/-- What a node that is not skipped adds to a store once `id` is its entity: observations for
drafts, and the link of the entity to its parent. -/
structure Adds (s : Store) (now : Timestamp) (node : TreeNode) (parent : Option Id) (id : Id)
    (drafts : List ObservationDraft) (effect : NodeEffect) (after : Store) : Prop where
  resolved : effect.resolved = some id
  observations : ∃ rows, after.observations = s.observations ++ rows ∧
    rows.length = effect.observations ∧ Noted now id drafts rows
  relations : ∃ links, after.relations = s.relations ++ links ∧ links.length = effect.relations ∧
    ∀ r ∈ links, ∃ p, parent = some p ∧ id ≠ p ∧ r.triple = (id, p, node.relationToParent)
  /-- The type of the link has passed its check, and the link is there. -/
  linked : ∀ p, parent = some p → id ≠ p → Field.relationType.validate (linkType node) = .ok () ∧
    (id, p, node.relationToParent) ∈ after.relations.map Relation.triple

/-- What applying a node can do. -/
inductive Admitted (s : Store) (now : Timestamp) (node : TreeNode) (decision : Decision)
    (treeParent : Option Id) : NodeEffect → Store → Prop where
  /-- A skipped node stands for the entity that is given, or for that of its name and type. -/
  | skipped {target parent : Option Id} (hdecision : decision = .skip target parent)
      (hthere : ∀ id, target = some id → s.HasEntity id) :
      Admitted s now node decision treeParent
        { fate := .skipped
          resolved :=
            target.or ((s.entityOf? (trim node.name) (trim node.entityType)).map Entity.id) } s
  | merged {target : Entity} {effect : NodeEffect} {after : Store}
      (htarget : s.mergeTarget? node decision = some target) (hfate : effect.fate = .merged)
      (hentities : after.entities =
        s.absorbedRows now target node (after.observationsOf target.id).length)
      (hadds : s.Adds now node (decision.parent?.or treeParent) target.id
        (unseen (s.contentsOf target.id) node.observations) effect after) :
      Admitted s now node decision treeParent effect after
  | created {parent : Option Id} {row : Entity} {effect : NodeEffect} {after : Store}
      (hdecision : decision = .create parent) (hfree : s.entityNamed? (trim node.name) = none)
      (hrow : row = node.newEntity now s.nextEntity) (hfate : effect.fate = .created)
      (hentities : after.entities =
        s.createdRows now row (after.observationsOf row.id).length)
      (hadds : s.Adds now node (decision.parent?.or treeParent) row.id node.observations effect
        after) :
      Admitted s now node decision treeParent effect after

theorem absorbUnder_eq_ok {now : Timestamp} {node : TreeNode} {target : Entity}
    {parent : Option Id} {s after : Store} {effect : NodeEffect}
    (h : s.absorbUnder now node target parent = .ok (effect, after)) :
    effect.fate = .merged ∧
    after.entities = s.absorbedRows now target node (after.observationsOf target.id).length ∧
    s.Adds now node parent target.id (unseen (s.contentsOf target.id) node.observations) effect
      after := by
  simp only [absorbUnder, bind_eq_ok, Prod.exists] at h
  obtain ⟨_, mid, habsorb, _, _, hlink, h⟩ := h
  cases h
  obtain ⟨hentities, hrelations, rows, hrows, hcount, hnoted⟩ := absorbNode_eq_ok habsorb
  obtain ⟨links, next, rfl, hlinks, hnew, hlinked⟩ := linkToParent_eq_ok hlink
  exact ⟨rfl, hentities, rfl, ⟨rows, hrows, hcount, hnoted⟩,
    ⟨links, congrArg (· ++ links) hrelations, hlinks, hnew⟩, hlinked⟩

theorem insertUnder_eq_ok {now : Timestamp} {node : TreeNode} {parent : Option Id}
    {s after : Store} {effect : NodeEffect}
    (h : s.insertUnder now node parent = .ok (effect, after)) :
    ∃ row, row = node.newEntity now s.nextEntity ∧ effect.fate = .created ∧
    after.entities = s.createdRows now row (after.observationsOf row.id).length ∧
    s.Adds now node parent row.id node.observations effect after := by
  simp only [insertUnder, bind_eq_ok, Prod.exists] at h
  obtain ⟨row, _, mid, hinsert, _, _, hlink, h⟩ := h
  cases h
  obtain ⟨hrow, hentities, hrelations, rows, hrows, hcount, hnoted⟩ := insertNode_eq_ok hinsert
  obtain ⟨links, next, rfl, hlinks, hnew, hlinked⟩ := linkToParent_eq_ok hlink
  exact ⟨row, hrow, rfl, hentities, rfl, ⟨rows, hrows, hcount, hnoted⟩,
    ⟨links, congrArg (· ++ links) hrelations, hlinks, hnew⟩, hlinked⟩

/-- Applying a node that succeeds skips it, merges it or creates its entity. -/
theorem admitted_of_ok {now : Timestamp} {node : TreeNode} {decision : Decision}
    {treeParent : Option Id} {s after : Store} {effect : NodeEffect}
    (h : s.admitNode now node decision treeParent = .ok (effect, after)) :
    s.Admitted now node decision treeParent effect after := by
  cases decision with
  | skip target parent =>
    cases target with
    | none =>
      cases h
      exact .skipped rfl (by simp)
    | some id =>
      simp only [admitNode, bind_eq_ok] at h
      obtain ⟨target, htarget, h⟩ := h
      cases h
      have hfound := existing_eq_ok.1 htarget
      rw [entity?_id hfound]
      refine .skipped rfl ?_
      rintro _ ⟨⟩
      exact hasEntity_of_entity? hfound
  | create parent =>
    simp only [admitNode] at h
    split at h
    · rename_i target htarget
      obtain ⟨hfate, hentities, hadds⟩ := absorbUnder_eq_ok h
      exact .merged htarget hfate hentities hadds
    · rename_i hfree
      obtain ⟨row, hrow, hfate, hentities, hadds⟩ := insertUnder_eq_ok h
      exact .created rfl hfree hrow hfate hentities hadds
  | merge id parent =>
    simp only [admitNode, bind_eq_ok] at h
    obtain ⟨target, htarget, h⟩ := h
    obtain ⟨hfate, hentities, hadds⟩ := absorbUnder_eq_ok h
    exact .merged (existing_eq_ok.1 htarget) hfate hentities hadds
  | addRelation id parent =>
    simp only [admitNode, bind_eq_ok] at h
    obtain ⟨target, htarget, h⟩ := h
    obtain ⟨hfate, hentities, hadds⟩ := absorbUnder_eq_ok h
    exact .merged (existing_eq_ok.1 htarget) hfate hentities hadds

/-! ## What holds however a node is applied -/

section Admitted

variable {s after : Store} {now : Timestamp} {node : TreeNode} {decision : Decision}
  {treeParent : Option Id} {effect : NodeEffect}

theorem hasEntity_iff_mem_ids {id : Id} : s.HasEntity id ↔ id ∈ s.entities.map Entity.id := by
  simp [HasEntity]

/-- A node that is created takes the next id, and no other row comes or goes. -/
theorem Admitted.ids (h : s.Admitted now node decision treeParent effect after) :
    after.entities.map Entity.id =
      s.entities.map Entity.id ++ if effect.fate = .created then [s.nextEntity] else [] := by
  cases h with
  | skipped hdecision hthere => simp
  | merged htarget hfate hentities hadds =>
    rw [hentities, map_id_absorbedRows, hfate, if_neg (by decide), List.append_nil]
  | created hdecision hfree hrow hfate hentities hadds =>
    rw [hentities, map_id_createdRows, hfate, if_pos rfl, hrow]
    rfl

theorem Admitted.hasEntity (h : s.Admitted now node decision treeParent effect after) {id : Id}
    (hid : s.HasEntity id) : after.HasEntity id := by
  rw [hasEntity_iff_mem_ids] at hid ⊢
  rw [h.ids]
  exact List.mem_append_left _ hid

/-- A node that succeeds is skipped and adds nothing, or it is not to be skipped, has an entity, and
adds what is said of this entity. -/
theorem Admitted.adds (h : s.Admitted now node decision treeParent effect after) :
    (effect.fate = .skipped ∧ after = s ∧ effect.observations = 0 ∧ effect.relations = 0 ∧
      ∃ target parent, decision = .skip target parent ∧ effect.resolved =
        target.or ((s.entityOf? (trim node.name) (trim node.entityType)).map Entity.id)) ∨
    (effect.fate ≠ .skipped ∧ (∀ target parent, decision ≠ .skip target parent) ∧
      ∃ id drafts, after.HasEntity id ∧
        s.Adds now node (decision.parent?.or treeParent) id drafts effect after) := by
  have hids := h.ids
  cases h with
  | skipped hdecision hthere => exact .inl ⟨rfl, rfl, rfl, rfl, _, _, hdecision, rfl⟩
  | @merged target _ _ htarget hfate hentities hadds =>
    refine .inr ⟨by simp [hfate], ?_, target.id, _, ?_, hadds⟩
    · rintro _ _ rfl
      cases htarget
    · rw [hasEntity_iff_mem_ids, hids]
      exact List.mem_append_left _ (List.mem_map_of_mem (mem_of_mergeTarget? htarget))
  | created hdecision hfree hrow hfate hentities hadds =>
    refine .inr ⟨by simp [hfate], ?_, _, _, ?_, hadds⟩
    · rintro _ _ rfl
      cases hdecision
    · rw [hasEntity_iff_mem_ids, hids, hfate, hrow]
      exact List.mem_append_right _ List.mem_cons_self

/-! ## What stands for a node -/

theorem Admitted.resolved_of_skip {target parent : Option Id}
    (h : s.Admitted now node (.skip target parent) treeParent effect after) :
    effect.resolved =
      target.or ((s.entityOf? (trim node.name) (trim node.entityType)).map Entity.id) := by
  cases h with
  | skipped hskip _ =>
    cases hskip
    rfl
  | merged htarget _ _ _ => cases htarget
  | created hcreate _ _ _ _ _ => cases hcreate

theorem Admitted.resolved_of_given {target : Id} {parent : Option Id}
    (h : s.Admitted now node decision treeParent effect after)
    (hdecision : decision = .merge target parent ∨ decision = .addRelation target parent) :
    effect.resolved = some target := by
  cases h with
  | skipped hskip _ => simp [hskip] at hdecision
  | merged htarget _ _ hadds =>
    rw [hadds.resolved]
    rcases hdecision with rfl | rfl
    · rw [entity?_id htarget]
    · rw [entity?_id htarget]
  | created hcreate _ _ _ _ _ => simp [hcreate] at hdecision

/-- A node that is to be created stands for an entity of its name, whether it is new or not. -/
theorem Admitted.resolved_of_create {parent : Option Id}
    (h : s.Admitted now node (.create parent) treeParent effect after) :
    ∃ e ∈ after.entities, e.name = trim node.name ∧ effect.resolved = some e.id := by
  cases h with
  | skipped hskip _ => cases hskip
  | @merged target _ _ htarget _ hentities hadds =>
    have hname : target.name = trim node.name := entityNamed?_name htarget
    rw [hadds.resolved, hentities]
    exact ⟨_, absorbed_mem_absorbedRows (mem_of_mergeTarget? htarget), absorbed_name.trans hname,
      congrArg some absorbed_id.symm⟩
  | created _ _ hrow _ hentities hadds =>
    rw [hadds.resolved, hentities]
    exact ⟨_, counted_mem_createdRows,
      (congrArg Entity.name hrow).trans TreeNode.newEntity_name, rfl⟩

end Admitted

end Store
end MemoryGraph
