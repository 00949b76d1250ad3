-- SUMMARY: The writes to single rows with the guards under which they are made; every operation is a chain of them.
import MemoryGraph.Proofs.AliasUnion
import MemoryGraph.Proofs.Operation
import MemoryGraph.Proofs.Outcome
import Mathlib.Logic.Relation

/-!
# Writes

An operation reaches the tables through few writes to single rows, and what the
checks in front of a write have established is part of the write: the name of a
new entity is free, the owner of a new observation exists, a relation gets ends
that exist and differ. An invariant of the store is proved once for each kind of
write and then holds of every operation.
-/
namespace MemoryGraph

open Text

/-! ## Settled rows -/

/-- The texts of an entity are as they are stored: checked, trimmed, and none of them blank. -/
structure Entity.Settled (e : Entity) : Prop where
  name : Field.entityName.Settled e.name
  entityType : Field.entityType.Settled e.entityType
  aliases : nonBlank? e.aliases = e.aliases
  description : nonBlank? e.description = e.description

/-- The content of an observation has passed its check, and its moment is known. -/
structure Observation.Settled (o : Observation) : Prop where
  content : Field.observation.fault? o.content = none
  createdAt : allBlank o.createdAt = false

/-- The type of a relation has passed its check and is trimmed. -/
def Relation.Settled (r : Relation) : Prop := Field.relationType.Settled r.relationType

/-- The moment that an observation gets: the given one, unless it is blank or none is given. -/
def ObservationDraft.momentOr (draft : ObservationDraft) (now : Timestamp) : Timestamp :=
  match draft.createdAt with
  | some moment => if allBlank moment then now else moment
  | none => now

theorem ObservationDraft.allBlank_momentOr (draft : ObservationDraft) {now : Timestamp}
    (hnow : allBlank now = false) : allBlank (draft.momentOr now) = false := by
  unfold momentOr
  split
  · split
    · exact hnow
    · rename_i hkept
      simpa using hkept
  · exact hnow

namespace Store

/-! ## Entities that are there -/

/-- Whether an entity of this id is there. -/
def HasEntity (s : Store) (id : Id) : Prop := ∃ e ∈ s.entities, e.id = id

instance (s : Store) (id : Id) : Decidable (s.HasEntity id) :=
  inferInstanceAs (Decidable (∃ e ∈ s.entities, e.id = id))

theorem isSome_entity?_iff {s : Store} {id : Id} : (s.entity? id).isSome ↔ s.HasEntity id := by
  simp [entity?, HasEntity, List.find?_isSome]

theorem HasEntity.exists_entity? {s : Store} {id : Id} (h : s.HasEntity id) :
    ∃ e, s.entity? id = some e :=
  Option.isSome_iff_exists.1 (isSome_entity?_iff.2 h)

theorem isNone_entity?_iff {s : Store} {id : Id} :
    (s.entity? id).isNone = true ↔ ¬ s.HasEntity id := by
  rw [← isSome_entity?_iff, Option.isNone_iff_eq_none, Option.not_isSome_iff_eq_none]

/-- The check of the two ends of a relation. -/
theorem missing_end_iff {s : Store} {source target : Id} :
    ((s.entity? source).isNone || (s.entity? target).isNone) = true ↔
      ¬ (s.HasEntity source ∧ s.HasEntity target) := by
  rw [Bool.or_eq_true, isNone_entity?_iff, isNone_entity?_iff, not_and_or]

theorem mem_of_entity? {s : Store} {id : Id} {e : Entity} (h : s.entity? id = some e) :
    e ∈ s.entities :=
  List.mem_of_find?_eq_some h

theorem hasEntity_of_entity? {s : Store} {id : Id} {e : Entity} (h : s.entity? id = some e) :
    s.HasEntity id :=
  ⟨e, mem_of_entity? h, entity?_id h⟩

theorem existing_eq_ok {s : Store} {id : Id} {e : Entity} :
    s.existing id = .ok e ↔ s.entity? id = some e := by
  unfold existing
  split <;> simp_all

theorem HasEntity.existing {s : Store} {id : Id} (h : s.HasEntity id) :
    ∃ e, s.existing id = .ok e := by
  obtain ⟨e, he⟩ := h.exists_entity?
  exact ⟨e, existing_eq_ok.2 he⟩

theorem existing_eq_error {s : Store} {id : Id} {cause : Refusal} :
    s.existing id = .error cause ↔ ¬ s.HasEntity id ∧ cause = .notFound (.entity id) := by
  rw [← isNone_entity?_iff]
  unfold existing
  split
  · rename_i e he
    simp [he]
  · rename_i hnone
    simp [hnone, eq_comm]

theorem entityNamed?_name {s : Store} {name : String} {e : Entity}
    (h : s.entityNamed? name = some e) : e.name = name := by
  simpa using List.find?_some h

theorem mem_of_entityNamed? {s : Store} {name : String} {e : Entity}
    (h : s.entityNamed? name = some e) : e ∈ s.entities :=
  List.mem_of_find?_eq_some h

/-! ## Kinds of writes -/

/-- A write to one row, or to the rows of one owner, that its checks have let through. -/
inductive Write : Store → Store → Prop where
  | addEntity {s : Store} {e : Entity} (hid : e.id = s.nextEntity) (hsettled : e.Settled)
      (hname : s.entityNamed? e.name = none) :
      Write s { s with entities := s.entities ++ [e], nextEntity := s.nextEntity + 1 }
  | changeEntity {s : Store} {id : Id} {change : Entity → Entity}
      (hid : ∀ e, (change e).id = e.id)
      (hsettled : ∀ e ∈ s.entities, e.id = id → e.Settled → (change e).Settled)
      (hname : ∀ e ∈ s.entities, e.id = id → (change e).name = e.name ∨
        ∀ other, s.entityNamed? (change e).name = some other → other.id = id) :
      Write s (s.modifyEntity id change)
  | removeEntity (s : Store) (id : Id) : Write s (s.removeEntity id)
  | addObservation {s : Store} {o : Observation} (hid : o.id = s.nextObservation)
      (howner : s.HasEntity o.entityId) (hsettled : o.Settled) :
      Write s { s with
        observations := s.observations ++ [o], nextObservation := s.nextObservation + 1 }
  | removeObservation (s : Store) (id : Id) : Write s (s.removeObservation id)
  | handOver {s : Store} {source target : Id} (htarget : s.HasEntity target) :
      Write s (s.handOverObservations source target)
  | spendRelationId (s : Store) : Write s { s with nextRelation := s.nextRelation + 1 }
  | addRelation {s : Store} {r : Relation} (hid : r.id = s.nextRelation) (hsettled : r.Settled)
      (hloop : r.source ≠ r.target)
      (hnew : s.relationBetween? r.source r.target r.relationType = none)
      (hsource : s.HasEntity r.source) (htarget : s.HasEntity r.target) :
      Write s { s with relations := s.relations ++ [r], nextRelation := s.nextRelation + 1 }
  | keepRelations (s : Store) (keep : Relation → Bool) :
      Write s { s with relations := s.relations.filter keep }
  | redirect {s after : Store} {relation : Relation} {source target : Id}
      (hloop : source ≠ target)
      (htype : ∀ r ∈ s.relations, r.id = relation.id → r.relationType = relation.relationType)
      (hok : s.redirectRelation relation source target = .ok after) : Write s after

/-- Any number of writes, one after the other. -/
abbrev Writes : Store → Store → Prop := Relation.ReflTransGen Write

/-- What every write keeps, any number of writes keeps. -/
theorem Writes.keeps {P : Store → Prop} (hstep : ∀ {s after : Store}, Write s after → P s → P after)
    {s after : Store} (h : Writes s after) (hs : P s) : P after := by
  induction h with
  | refl => exact hs
  | tail _ hwrite ih => exact hstep hwrite ih

/-! ## Rows of entities -/

theorem appendEntity_eq_ok {now : Timestamp} {input : EntityDraft} {s after : Store} {e : Entity}
    (h : s.appendEntity now input = .ok (e, after)) :
    Field.entityName.validate input.name = .ok () ∧
    Field.entityType.validate input.entityType = .ok () ∧
    e = { id := s.nextEntity
          name := trim input.name
          entityType := trim input.entityType
          aliases := nonBlank? input.aliases
          description := nonBlank? input.description
          createdAt := now
          updatedAt := now } ∧
    after = { s with entities := s.entities ++ [e], nextEntity := s.nextEntity + 1 } := by
  simp only [appendEntity, bind_eq_ok] at h
  obtain ⟨_, hname, _, htype, _, _, h⟩ := h
  cases h
  exact ⟨hname, htype, rfl, rfl⟩

theorem appendEntity_of_settled (now : Timestamp) {s : Store} {input : EntityDraft}
    (hname : Field.entityName.Settled input.name)
    (htype : Field.entityType.Settled input.entityType) (hnone : input.observations = []) :
    ∃ row after, s.appendEntity now input = .ok (row, after) := by
  simp only [appendEntity, bind_eq_ok]
  exact ⟨_, _, (), hname.validate, (), htype.validate, (), by rw [hnone]; rfl, rfl⟩

theorem appendEntity_write {now : Timestamp} {input : EntityDraft} {s after : Store} {e : Entity}
    (h : s.appendEntity now input = .ok (e, after))
    (hfree : s.entityNamed? (trim input.name) = none) : Write s after := by
  obtain ⟨hname, htype, rfl, rfl⟩ := appendEntity_eq_ok h
  refine .addEntity rfl ⟨?_, ?_, ?_, ?_⟩ hfree
  · exact Field.settled_trim hname
  · exact Field.settled_trim htype
  · exact nonBlank?_nonBlank? _
  · exact nonBlank?_nonBlank? _

theorem hasEntity_appendEntity {now : Timestamp} {input : EntityDraft} {s after : Store}
    {e : Entity} (h : s.appendEntity now input = .ok (e, after)) : after.HasEntity e.id := by
  obtain ⟨_, _, _, rfl⟩ := appendEntity_eq_ok h
  exact ⟨e, by simp, rfl⟩

/-- A change that keeps the id and the name of an entity and leaves its texts settled. -/
theorem modifyEntity_write {s : Store} {id : Id} {change : Entity → Entity}
    (hid : ∀ e, (change e).id = e.id) (hname : ∀ e, (change e).name = e.name)
    (hsettled : ∀ e, e.Settled → (change e).Settled) : Write s (s.modifyEntity id change) :=
  .changeEntity hid (fun e _ _ => hsettled e) fun e _ _ => .inl (hname e)

theorem hasEntity_modifyEntity {s : Store} {other : Id} (id : Id) (change : Entity → Entity)
    (hid : ∀ e, (change e).id = e.id) (h : s.HasEntity other) :
    (s.modifyEntity id change).HasEntity other := by
  obtain ⟨e, he, rfl⟩ := h
  refine ⟨_, List.mem_map_of_mem he, ?_⟩
  split
  · exact hid e
  · rfl

theorem hasEntity_removeEntity {s : Store} {id other : Id} (hne : other ≠ id)
    (h : s.HasEntity other) : (s.removeEntity id).HasEntity other := by
  obtain ⟨e, he, rfl⟩ := h
  exact ⟨e, List.mem_filter.2 ⟨he, by simpa using hne⟩, rfl⟩

theorem deleteEntity_eq_ok {id : Id} {s after : Store} :
    s.deleteEntity id = .ok after ↔ s.HasEntity id ∧ after = s.removeEntity id := by
  unfold deleteEntity
  split <;> rename_i hthere <;> rw [isSome_entity?_iff] at hthere
  · simp [hthere, eq_comm]
  · simp [hthere]

theorem refreshCount_write (now : Timestamp) (s : Store) (id : Id) :
    Write s (s.refreshCount now id) :=
  modifyEntity_write (fun _ => rfl) (fun _ => rfl)
    fun _ h => ⟨h.name, h.entityType, h.aliases, h.description⟩

theorem setAliases_write (now : Timestamp) (s : Store) (id : Id) {aliases : Option String}
    (h : nonBlank? aliases = aliases) :
    Write s (s.modifyEntity id fun e => { e with aliases, updatedAt := now }) :=
  modifyEntity_write (fun _ => rfl) (fun _ => rfl)
    fun _ he => ⟨he.name, he.entityType, h, he.description⟩

/-! ## Rows of observations -/

theorem appendObservation_eq_ok {now : Timestamp} {id : Id} {draft : ObservationDraft}
    {s after : Store} {row : Observation}
    (h : s.appendObservation now id draft = .ok (row, after)) :
    Field.observation.validate draft.content = .ok () ∧
    row = { id := s.nextObservation, entityId := id, content := draft.content
            createdAt := draft.momentOr now } ∧
    after = { s with
      observations := s.observations ++ [row], nextObservation := s.nextObservation + 1 } := by
  simp only [appendObservation, bind_eq_ok] at h
  obtain ⟨_, hcontent, h⟩ := h
  cases h
  exact ⟨hcontent, rfl, rfl⟩

/-- The rows that drafts get for an entity, under the ids from the next one on. -/
def noteRows (now : Timestamp) (id : Id) : Id → List ObservationDraft → List Observation
  | _, [] => []
  | next, draft :: rest =>
    { id := next, entityId := id, content := draft.content, createdAt := draft.momentOr now }
      :: noteRows now id (next + 1) rest

theorem noteRows_owner {now : Timestamp} {id next : Id} {drafts : List ObservationDraft}
    {row : Observation} (h : row ∈ noteRows now id next drafts) : row.entityId = id := by
  induction drafts generalizing next with
  | nil => cases h
  | cons draft rest ih =>
    rcases List.mem_cons.1 h with rfl | h
    · rfl
    · exact ih h

theorem noteRows_said (now : Timestamp) (id next : Id) (drafts : List ObservationDraft) :
    (noteRows now id next drafts).map (fun row => (row.content, row.createdAt)) =
      drafts.map fun draft => (draft.content, draft.momentOr now) := by
  induction drafts generalizing next with
  | nil => rfl
  | cons draft rest ih => simp [noteRows, ih]

/-- Checks made one after the other succeed when all of them do. -/
theorem forM_eq_ok {ε α : Type} {check : α → Except ε Unit} {as : List α} :
    as.forM check = .ok () ↔ ∀ a ∈ as, check a = .ok () := by
  induction as with
  | nil => simp only [List.forM, pure, Except.pure, List.not_mem_nil, false_implies, implies_true]
  | cons a rest ih =>
    simp only [List.forM, bind_eq_ok, ih, List.forall_mem_cons, exists_and_right]
    exact and_congr_left fun _ => ⟨fun ⟨_, ha⟩ => ha, fun ha => ⟨_, ha⟩⟩

/-- Adding observations one after the other, each with its check, gives the same as checking all of
them before the first is added. -/
theorem appendObservations_eq (now : Timestamp) (id : Id) (drafts : List ObservationDraft)
    (s : Store) :
    s.appendObservations now id drafts = (do
      drafts.forM fun draft => Field.observation.validate draft.content
      let rows := noteRows now id s.nextObservation drafts
      return (rows, { s with
        observations := s.observations ++ rows
        nextObservation := s.nextObservation + rows.length })) := by
  induction drafts generalizing s with
  | nil =>
    simp only [appendObservations, noteRows, List.append_nil, List.length_nil, Int.ofNat_zero,
      Int.add_zero]
    rfl
  | cons draft rest ih =>
    have hnext (n : Nat) : s.nextObservation + 1 + n = s.nextObservation + (n + 1 : Nat) := by
      rw [Int.add_assoc, Int.add_comm 1, Int.natCast_succ]
    rw [appendObservations, List.forM]
    cases hvalid : Field.observation.validate draft.content with
    | error cause => simp only [appendObservation, hvalid, bind, Except.bind]
    | ok _ =>
      simp only [appendObservation, hvalid, ih, bind, Except.bind, pure, Except.pure]
      cases rest.forM fun draft => Field.observation.validate draft.content with
      | error cause => rfl
      | ok _ =>
        simp only [noteRows, List.length_cons, ← hnext, List.append_assoc, List.singleton_append]
        rfl

theorem appendObservations_of_settled (now : Timestamp) (id : Id) {drafts : List ObservationDraft}
    (hcontent : ∀ draft ∈ drafts, Field.observation.fault? draft.content = none) (s : Store) :
    ∃ rows next, s.appendObservations now id drafts = .ok (rows, { s with
        observations := s.observations ++ rows, nextObservation := next }) ∧
      (∀ row ∈ rows, row.entityId = id) ∧
      rows.map (fun row => (row.content, row.createdAt)) =
        drafts.map fun draft => (draft.content, draft.momentOr now) := by
  have hvalid : drafts.forM (fun draft => Field.observation.validate draft.content) = .ok () :=
    forM_eq_ok.2 fun draft hdraft => Field.validate_eq_ok.2 (hcontent draft hdraft)
  have hall := appendObservations_eq now id drafts s
  rw [hvalid] at hall
  exact ⟨_, _, hall, fun row => noteRows_owner, noteRows_said now id s.nextObservation drafts⟩

theorem appendObservation_write {now : Moment} {id : Id} {draft : ObservationDraft}
    {s after : Store} {row : Observation} (howner : s.HasEntity id)
    (h : s.appendObservation now.text id draft = .ok (row, after)) : Write s after := by
  obtain ⟨hcontent, rfl, rfl⟩ := appendObservation_eq_ok h
  exact .addObservation rfl howner
    ⟨Field.validate_eq_ok.1 hcontent, draft.allBlank_momentOr now.not_blank⟩

theorem appendObservations_writes {now : Moment} {id : Id} {drafts : List ObservationDraft}
    {s after : Store} {rows : List Observation} (howner : s.HasEntity id)
    (h : appendObservations now.text id drafts s = .ok (rows, after)) : Writes s after := by
  induction drafts generalizing s rows with
  | nil =>
    cases h
    exact .refl
  | cons draft rest ih =>
    simp only [appendObservations, bind_eq_ok, Prod.exists] at h
    obtain ⟨row, mid, hrow, more, last, hrest, h⟩ := h
    cases h
    have howner' : mid.HasEntity id := by
      obtain ⟨_, _, rfl⟩ := appendObservation_eq_ok hrow
      exact howner
    exact .head (appendObservation_write howner hrow) (ih howner' hrest)

/-! ## Rows of relations -/

theorem relationBetween?_links {s : Store} {source target : Id} {relationType : String}
    {r : Relation} (h : s.relationBetween? source target relationType = some r) :
    r.source = source ∧ r.target = target ∧ r.relationType = relationType := by
  have hlinks := List.find?_some h
  simpa [Relation.links, and_assoc] using hlinks

theorem mem_of_relationBetween? {s : Store} {source target : Id} {relationType : String}
    {r : Relation} (h : s.relationBetween? source target relationType = some r) :
    r ∈ s.relations :=
  List.mem_of_find?_eq_some h

theorem relationBetween?_eq_none {s : Store} {source target : Id} {relationType : String} :
    s.relationBetween? source target relationType = none ↔
      ∀ r ∈ s.relations, r.source = source → r.target = target →
        r.relationType ≠ relationType := by
  simp [relationBetween?, Relation.links]

/-- A relation is appended, or the one that is there already takes its id. -/
theorem appendRelation_cases {now : Timestamp} {source target : Id} {relationType : String}
    {s after : Store} {added : Option Relation}
    (h : s.appendRelation now source target relationType = .ok (added, after)) :
    Field.relationType.validate relationType = .ok () ∧ source ≠ target ∧
    ((added = none ∧ (s.relationBetween? source target (trim relationType)).isSome ∧
        after = { s with nextRelation := s.nextRelation + 1 }) ∨
     (∃ row, added = some row ∧
        row = { id := s.nextRelation, source, target, relationType := trim relationType
                createdAt := now } ∧
        s.relationBetween? source target (trim relationType) = none ∧
        s.HasEntity source ∧ s.HasEntity target ∧
        after = { s with
          relations := s.relations ++ [row], nextRelation := s.nextRelation + 1 })) := by
  simp only [appendRelation, bind_eq_ok, guard_eq_ok] at h
  obtain ⟨_, htype, hloop, h⟩ := h
  refine ⟨htype, hloop, ?_⟩
  split at h
  · rename_i hthere
    cases h
    exact .inl ⟨rfl, hthere, rfl⟩
  · rename_i hnew
    split at h
    · cases h
    · rename_i hends
      cases h
      rw [missing_end_iff, not_not] at hends
      exact .inr ⟨_, rfl, rfl, by simpa using hnew, hends.1, hends.2, rfl⟩

theorem appendRelation_of_settled (now : Timestamp) {s : Store} {source target : Id}
    {relationType : String} (htype : Field.relationType.Settled relationType)
    (hloop : source ≠ target) (hsource : s.HasEntity source) (htarget : s.HasEntity target) :
    ∃ added after, s.appendRelation now source target relationType = .ok (added, after) := by
  have hends : ¬ ((s.entity? source).isNone || (s.entity? target).isNone) = true := by
    rw [missing_end_iff, not_not]
    exact ⟨hsource, htarget⟩
  simp only [appendRelation, bind_eq_ok, guard_eq_ok]
  by_cases hthere : (s.relationBetween? source target (trim relationType)).isSome = true
  · exact ⟨none, _, (), htype.validate, hloop, if_pos hthere⟩
  · exact ⟨some _, _, (), htype.validate, hloop, (if_neg hthere).trans (if_neg hends)⟩

/-- A relation that is not there yet is appended in the last row. -/
theorem appendRelation_of_free (now : Timestamp) {s : Store} {source target : Id}
    {relationType : String} (htype : Field.relationType.Settled relationType)
    (hloop : source ≠ target) (hnew : s.relationBetween? source target relationType = none)
    (hsource : s.HasEntity source) (htarget : s.HasEntity target) :
    let row : Relation := { id := s.nextRelation, source, target, relationType, createdAt := now }
    s.appendRelation now source target relationType = .ok (some row, { s with
      relations := s.relations ++ [row], nextRelation := s.nextRelation + 1 }) := by
  intro row
  obtain ⟨added, last, hok⟩ := appendRelation_of_settled now htype hloop hsource htarget
  have hcases := (appendRelation_cases hok).2.2
  rw [htype.trim_eq, hnew] at hcases
  obtain ⟨_, ⟨⟩, _⟩ | ⟨_, rfl, rfl, _, _, _, rfl⟩ := hcases
  exact hok

theorem appendRelation_write {now : Timestamp} {source target : Id} {relationType : String}
    {s after : Store} {added : Option Relation}
    (h : s.appendRelation now source target relationType = .ok (added, after)) :
    Write s after := by
  obtain ⟨htype, hloop, ⟨_, _, rfl⟩ | ⟨row, _, rfl, hnew, hsource, htarget, rfl⟩⟩ :=
    appendRelation_cases h
  · exact .spendRelationId s
  · exact .addRelation rfl (Field.settled_trim htype) hloop hnew hsource htarget

theorem redirectRelation_eq_ok {s after : Store} {relation : Relation} {source target : Id}
    (h : s.redirectRelation relation source target = .ok after) :
    (∀ r ∈ s.relations, r.id ≠ relation.id → r.source = source → r.target = target →
      r.relationType ≠ relation.relationType) ∧
    s.HasEntity source ∧ s.HasEntity target ∧
    after = { s with
      relations := s.relations.map fun r =>
        if r.id = relation.id then { r with source, target } else r } := by
  simp only [redirectRelation] at h
  split at h
  · cases h
  · rename_i hfree
    split at h
    · cases h
    · rename_i hends
      cases h
      rw [missing_end_iff, not_not] at hends
      refine ⟨?_, hends.1, hends.2, rfl⟩
      simpa [Relation.links] using hfree

theorem redirectRelation_of_free {s : Store} {relation : Relation} {source target : Id}
    (hfree : ∀ r ∈ s.relations, r.id ≠ relation.id → r.source = source → r.target = target →
      r.relationType ≠ relation.relationType)
    (hsource : s.HasEntity source) (htarget : s.HasEntity target) :
    s.redirectRelation relation source target = .ok { s with
      relations := s.relations.map fun r =>
        if r.id = relation.id then { r with source, target } else r } := by
  have hnone : (s.relations.any fun r =>
      r.id ≠ relation.id && r.links source target relation.relationType) = false := by
    simpa [Relation.links] using hfree
  have hends : ((s.entity? source).isNone || (s.entity? target).isNone) = false := by
    rw [← Bool.not_eq_true, missing_end_iff, not_not]
    exact ⟨hsource, htarget⟩
  simp only [redirectRelation, hnone, hends]
  rfl

end Store
end MemoryGraph
