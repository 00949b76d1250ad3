-- SUMMARY: How the rows of the tables go on over time: what a new row is, and that ids are never given twice.
import MemoryGraph.Proofs.Accounting
import MemoryGraph.Proofs.Count

/-!
# Rows over time

A row that an operation leaves is one of before, with its id and what it was
born with, or it has an id that was not given yet. Next ids do not fall, and so
both hold over any number of operations: an id that once was in a table never
comes back after its row is gone. For entities more is said: which of them an
operation may give another text or vector.
-/
namespace MemoryGraph

/-! ## Tables -/

/-- Every row of a table continues one of an earlier table, under its id and with what it was born
with, or has an id that the earlier table had not given yet. -/
def Continues {α β : Type} (id : α → Id) (birth : α → β) (earlier : List α) (next : Id)
    (later : List α) : Prop :=
  ∀ row ∈ later, (∃ old ∈ earlier, id old = id row ∧ birth old = birth row) ∨ next ≤ id row

namespace Continues

variable {α β : Type} {id : α → Id} {birth : α → β} {earlier mid later : List α} {next next' : Id}

theorem refl : Continues id birth earlier next earlier :=
  fun row hrow => .inl ⟨row, hrow, rfl, rfl⟩

theorem trans (hle : next ≤ next') (h : Continues id birth earlier next mid)
    (h' : Continues id birth mid next' later) : Continues id birth earlier next later := by
  intro row hrow
  obtain ⟨between, hbetween, hid, hbirth⟩ | hnew := h' row hrow
  · rw [← hid, ← hbirth]
    exact h between hbetween
  · exact .inr (Int.le_trans hle hnew)

theorem filter (keep : α → Bool) : Continues id birth earlier next (earlier.filter keep) :=
  fun row hrow => .inl ⟨row, (List.mem_filter.1 hrow).1, rfl, rfl⟩

theorem map {change : α → α} (hid : ∀ row, id (change row) = id row)
    (hbirth : ∀ row, birth (change row) = birth row) :
    Continues id birth earlier next (earlier.map change) := by
  intro row hrow
  obtain ⟨old, hold, rfl⟩ := List.mem_map.1 hrow
  exact .inl ⟨old, hold, (hid old).symm, (hbirth old).symm⟩

theorem append {row : α} (hid : id row = next) :
    Continues id birth earlier next (earlier ++ [row]) := by
  intro other hother
  rcases List.mem_append.1 hother with hother | hother
  · exact .inl ⟨other, hother, rfl, rfl⟩
  · rw [List.mem_singleton.1 hother, hid]
    exact .inr (Int.le_refl next)

end Continues

/-- What an observation is born with. -/
def Observation.birth (o : Observation) : String × Timestamp := (o.content, o.createdAt)

/-- What a relation is born with. -/
def Relation.birth (r : Relation) : String × Timestamp := (r.relationType, r.createdAt)

namespace Store

/-! ## Writes -/

/-- No table gives an id again that it has given. -/
structure NextLe (s after : Store) : Prop where
  entities : s.nextEntity ≤ after.nextEntity
  observations : s.nextObservation ≤ after.nextObservation
  relations : s.nextRelation ≤ after.nextRelation

theorem NextLe.refl (s : Store) : s.NextLe s := ⟨Int.le_refl _, Int.le_refl _, Int.le_refl _⟩

theorem NextLe.trans {s mid after : Store} (h : s.NextLe mid) (h' : mid.NextLe after) :
    s.NextLe after :=
  ⟨Int.le_trans h.entities h'.entities, Int.le_trans h.observations h'.observations,
    Int.le_trans h.relations h'.relations⟩

theorem Write.nextLe {s after : Store} (h : Write s after) : s.NextLe after := by
  have hraise (next : Id) : next ≤ next + 1 := Int.le_add_one (Int.le_refl next)
  cases h with
  | addEntity => exact { NextLe.refl s with entities := hraise _ }
  | addObservation => exact { NextLe.refl s with observations := hraise _ }
  | spendRelationId | addRelation => exact { NextLe.refl s with relations := hraise _ }
  | changeEntity | removeEntity | removeObservation | handOver | keepRelations =>
    exact ⟨Int.le_refl _, Int.le_refl _, Int.le_refl _⟩
  | redirect _ _ hok =>
    obtain ⟨_, _, _, rfl⟩ := redirectRelation_eq_ok hok
    exact ⟨Int.le_refl _, Int.le_refl _, Int.le_refl _⟩

theorem Writes.nextLe {s after : Store} (h : Writes s after) : s.NextLe after :=
  h.keeps (fun hwrite hle => hle.trans hwrite.nextLe) (.refl s)

theorem Write.observations {s after : Store} (h : Write s after) :
    Continues Observation.id Observation.birth s.observations s.nextObservation
      after.observations := by
  cases h with
  | addObservation hid => exact .append hid
  | removeEntity | removeObservation => exact .filter _
  | handOver =>
    refine .map (fun o => ?_) fun o => ?_
    · split <;> rfl
    · split <;> rfl
  | addEntity | changeEntity | spendRelationId | addRelation | keepRelations => exact .refl
  | redirect _ _ hok =>
    obtain ⟨_, _, _, rfl⟩ := redirectRelation_eq_ok hok
    exact .refl

theorem Write.relations {s after : Store} (h : Write s after) :
    Continues Relation.id Relation.birth s.relations s.nextRelation after.relations := by
  cases h with
  | addRelation hid => exact .append hid
  | removeEntity | keepRelations => exact .filter _
  | redirect _ _ hok =>
    obtain ⟨_, _, _, rfl⟩ := redirectRelation_eq_ok hok
    refine .map (fun r => ?_) fun r => ?_
    · split <;> rfl
    · split <;> rfl
  | addEntity | changeEntity | addObservation | removeObservation | handOver | spendRelationId =>
    exact .refl

theorem Writes.observations {s after : Store} (h : Writes s after) :
    Continues Observation.id Observation.birth s.observations s.nextObservation
      after.observations := by
  induction h with
  | refl => exact .refl
  | tail hwrites hwrite ih =>
    exact ih.trans (Writes.nextLe hwrites).observations hwrite.observations

theorem Writes.relations {s after : Store} (h : Writes s after) :
    Continues Relation.id Relation.birth s.relations s.nextRelation after.relations := by
  induction h with
  | refl => exact .refl
  | tail hwrites hwrite ih =>
    exact ih.trans (Writes.nextLe hwrites).relations hwrite.relations

/-! ## Rows of entities -/

/-- A row of an entity and a later one of it, which has the same text and the same vector unless it
was `touched`. -/
structure Keeps (touched : List Id) (old e : Entity) : Prop where
  id : old.id = e.id
  createdAt : old.createdAt = e.createdAt
  told : e.id ∉ touched → old.embedding = e.embedding ∧ old.embeddingText = e.embeddingText

/-- How the table of entities goes on when only the `touched` entities are new or get another text
or vector. -/
structure Retold (touched : List Id) (s after : Store) : Prop where
  next_le : s.nextEntity ≤ after.nextEntity
  row : ∀ e ∈ after.entities, (∃ old ∈ s.entities, Keeps touched old e) ∨
    (e.id ∈ touched ∧ s.nextEntity ≤ e.id)

namespace Retold

variable {s mid after : Store} {touched touched' : List Id} {id : Id}

theorem continues (h : s.Retold touched after) :
    Continues Entity.id Entity.createdAt s.entities s.nextEntity after.entities := by
  intro e he
  obtain ⟨old, hold, hkeeps⟩ | ⟨_, hnew⟩ := h.row e he
  · exact .inl ⟨old, hold, hkeeps.id, hkeeps.createdAt⟩
  · exact .inr hnew

theorem of_rows (hentities : after.entities = s.entities)
    (hnext : s.nextEntity ≤ after.nextEntity) : s.Retold touched after where
  next_le := hnext
  row e he := .inl ⟨e, hentities ▸ he, rfl, rfl, fun _ => ⟨rfl, rfl⟩⟩

theorem refl (s : Store) : s.Retold touched s := .of_rows rfl (Int.le_refl _)

theorem trans (h : s.Retold touched mid) (h' : mid.Retold touched after) :
    s.Retold touched after := by
  refine ⟨Int.le_trans h.next_le h'.next_le, fun e he => ?_⟩
  obtain ⟨between, hbetween, hkeeps'⟩ | ⟨htouched, hnew⟩ := h'.row e he
  · obtain ⟨old, hold, hkeeps⟩ | hnew := h.row between hbetween
    · refine .inl ⟨old, hold, hkeeps.id.trans hkeeps'.id,
        hkeeps.createdAt.trans hkeeps'.createdAt, fun hfresh => ?_⟩
      obtain ⟨hvector, htext⟩ := hkeeps.told (hkeeps'.id ▸ hfresh)
      obtain ⟨hvector', htext'⟩ := hkeeps'.told hfresh
      exact ⟨hvector.trans hvector', htext.trans htext'⟩
    · exact .inr (hkeeps'.id ▸ hnew)
  · exact .inr ⟨htouched, Int.le_trans h.next_le hnew⟩

theorem mono (h : s.Retold touched after) (hsub : touched ⊆ touched') :
    s.Retold touched' after := by
  refine ⟨h.next_le, fun e he => ?_⟩
  obtain ⟨old, hold, hkeeps⟩ | ⟨htouched, hnew⟩ := h.row e he
  · exact .inl ⟨old, hold, hkeeps.id, hkeeps.createdAt,
      fun hfresh => hkeeps.told fun htouched => hfresh (hsub htouched)⟩
  · exact .inr ⟨hsub htouched, hnew⟩

/-- A change to a row that is touched, or one that concerns neither its text nor its vector. -/
theorem modifyEntity {change : Entity → Entity} (hid : ∀ e, (change e).id = e.id)
    (hcreated : ∀ e, (change e).createdAt = e.createdAt)
    (htold : id ∈ touched ∨ ∀ e, (change e).embedding = e.embedding ∧
      (change e).embeddingText = e.embeddingText) :
    s.Retold touched (s.modifyEntity id change) := by
  refine ⟨Int.le_refl _, fun e he => ?_⟩
  obtain ⟨old, hold, rfl⟩ := List.mem_map.1 he
  refine .inl ⟨old, hold, ?_⟩
  split
  · rename_i hrow
    refine ⟨(hid old).symm, (hcreated old).symm, fun hfresh => ?_⟩
    rcases htold with htouched | htold
    · exact absurd (hrow.symm ▸ htouched) (hid old ▸ hfresh)
    · exact ⟨(htold old).1.symm, (htold old).2.symm⟩
  · exact ⟨rfl, rfl, fun _ => ⟨rfl, rfl⟩⟩

theorem refreshCount (now : Timestamp) (s : Store) (id : Id) :
    s.Retold touched (s.refreshCount now id) :=
  modifyEntity (fun _ => rfl) (fun _ => rfl) (.inr fun _ => ⟨rfl, rfl⟩)

theorem add {row : Entity} (hid : row.id = s.nextEntity) (htouched : row.id ∈ touched) :
    s.Retold touched { s with entities := s.entities ++ [row] } := by
  refine ⟨Int.le_refl _, fun e he => ?_⟩
  rcases List.mem_append.1 he with he | he
  · exact .inl ⟨e, he, rfl, rfl, fun _ => ⟨rfl, rfl⟩⟩
  · rw [List.mem_singleton.1 he]
    exact .inr ⟨htouched, hid ▸ Int.le_refl _⟩

theorem appendEntity {now : Timestamp} {input : EntityDraft} {row : Entity}
    (h : s.appendEntity now input = .ok (row, after)) : s.Retold [s.nextEntity] after := by
  obtain ⟨_, _, hrow, rfl⟩ := appendEntity_eq_ok h
  have hid : row.id = s.nextEntity := by rw [hrow]
  have hadded : s.Retold [s.nextEntity] { s with entities := s.entities ++ [row] } :=
    .add hid (List.mem_singleton.2 hid)
  exact hadded.trans (.of_rows rfl (Int.le_add_one (Int.le_refl _)))

theorem appendObservations {now : Timestamp} {drafts : List ObservationDraft}
    {rows : List Observation} (h : Store.appendObservations now id drafts s = .ok (rows, after)) :
    s.Retold touched after := by
  obtain ⟨_, rfl⟩ := appendObservations_eq_ok h
  exact .of_rows rfl (Int.le_refl _)

theorem removeEntity (s : Store) (id : Id) : s.Retold touched (s.removeEntity id) :=
  ⟨Int.le_refl _, fun e he => .inl ⟨e, (List.mem_filter.1 he).1, rfl, rfl, fun _ => ⟨rfl, rfl⟩⟩⟩

end Retold

/-! ### Editing records -/

section Operations

variable {s after : Store} {now : Timestamp}

theorem addEntity_retold {input : EntityDraft} {e : Entity}
    (h : s.addEntity now input = .ok (e, after)) : s.Retold [s.nextEntity] after := by
  simp only [addEntity, guard_eq_ok, bind_eq_ok, Prod.exists] at h
  obtain ⟨_, row, first, hrow, rows, second, hrows, _, _, h⟩ := h
  cases h
  exact ((Retold.appendEntity hrow).trans (.appendObservations hrows)).trans (.refreshCount ..)

theorem changeEntity_retold {id : Id} {update : EntityChange} {e : Entity}
    (h : s.changeEntity now id update = .ok (e, after)) : s.Retold [id] after := by
  simp only [changeEntity, bind_eq_ok] at h
  obtain ⟨_, _, _, _, _, _, _, _, h⟩ := h
  cases h
  exact .modifyEntity (fun _ => rfl) (fun _ => rfl) (.inl (List.mem_singleton_self id))

theorem observe_retold {id : Id} {contents : List String} {rows : List Observation}
    (h : s.observe now id contents = .ok (rows, after)) : s.Retold [] after := by
  simp only [observe, bind_eq_ok, Prod.exists] at h
  obtain ⟨_, _, _, _, hadded, h⟩ := h
  cases h
  exact (Retold.appendObservations hadded).trans (.refreshCount ..)

theorem dropObservation_retold {id : Id} (h : s.dropObservation now id = .ok after) :
    s.Retold [] after := by
  unfold dropObservation at h
  split at h
  · cases h
  · cases h
    have hremoved : s.Retold [] (s.removeObservation id) := .of_rows rfl (Int.le_refl _)
    exact hremoved.trans (.refreshCount ..)

theorem appendRelation_retold {source target : Id} {relationType : String}
    {added : Option Relation}
    (h : s.appendRelation now source target relationType = .ok (added, after)) :
    s.Retold [] after := by
  obtain ⟨_, _, ⟨_, _, rfl⟩ | ⟨_, _, _, _, _, _, rfl⟩⟩ := appendRelation_cases h <;>
    exact .of_rows rfl (Int.le_refl _)

theorem setEmbedding_retold {id : Id} {v : Embedding} (h : s.setEmbedding id v = .ok after) :
    s.Retold [id] after := by
  simp only [setEmbedding, bind_eq_ok] at h
  obtain ⟨_, _, h⟩ := h
  cases h
  exact .modifyEntity (fun _ => rfl) (fun _ => rfl) (.inl (List.mem_singleton_self id))

/-! ### Moving, merging and deleting -/

theorem reparent_retold {node parent : Id} {r : Relation}
    (h : s.reparent now node parent = .ok (r, after)) : s.Retold [] after := by
  simp only [reparent, guard_eq_ok, bind_eq_ok, Prod.exists] at h
  obtain ⟨_, _, _, _, _, _, added, last, hlink, h⟩ := h
  have hfree : s.Retold [] (s.releaseFromParents node) :=
    releaseFromParents_keeps (fun _ _ h => h.trans (.of_rows rfl (Int.le_refl _))) node (.refl s)
  have hlast := hfree.trans (appendRelation_retold hlink)
  cases added with
  | none => cases h
  | some row =>
    cases h
    exact hlast

theorem mergeEntities_retold {source target : Id} {effect : MergeEffect}
    (h : s.mergeEntities now source target = .ok (effect, after)) : s.Retold [target] after := by
  simp only [mergeEntities, guard_eq_ok, bind_eq_ok, Prod.exists] at h
  obtain ⟨_, giver, _, taker, _, count, mid, hrepoint, last, hdelete, _, _, h⟩ := h
  cases h
  obtain ⟨hentities, _, hnext⟩ := repointAll_rows hrepoint
  obtain ⟨_, rfl⟩ := deleteEntity_eq_ok.1 hdelete
  have htold : s.Retold [target] (s.modifyEntity target fun e =>
      { e with aliases := mergedAliases giver taker, updatedAt := now }) :=
    .modifyEntity (fun _ => rfl) (fun _ => rfl) (.inl (List.mem_singleton_self target))
  have hlinked : s.Retold [target] mid := htold.trans (.of_rows hentities (Int.le_of_eq hnext.symm))
  exact (hlinked.trans (.refreshCount ..)).trans (.removeEntity ..)

theorem prune_retold {node : Id} {cascade : Bool} {count : Nat}
    (h : s.prune node cascade = .ok (count, after)) : s.Retold [] after := by
  simp only [prune, bind_eq_ok] at h
  obtain ⟨_, _, last, hdelete, h⟩ := h
  cases h
  refine deleteAll_keeps (fun t id h => h.trans (.removeEntity t id)) hdelete ?_
  split <;> exact .of_rows rfl (Int.le_refl _)

end Operations

/-! ### Imports -/

theorem Admitted.retold {s after : Store} {now : Timestamp} {node : TreeNode} {decision : Decision}
    {treeParent : Option Id} {effect : NodeEffect} {touched : List Id}
    (h : s.Admitted now node decision treeParent effect after)
    (hnext : s.nextEntity ≤ after.nextEntity)
    (htouched : effect.fate ≠ .skipped → ∀ id, effect.resolved = some id → id ∈ touched) :
    s.Retold touched after := by
  cases h with
  | skipped hdecision hthere => exact .refl s
  | @merged target _ _ htarget hfate hentities hadds =>
    have hin := htouched (by simp [hfate]) _ hadds.resolved
    have habsorbed : s.Retold touched (s.modifyEntity target.id
        (absorbed now target node (after.observationsOf target.id).length)) :=
      .modifyEntity (fun _ => rfl) (fun _ => rfl) (.inl hin)
    exact habsorbed.trans (.of_rows hentities hnext)
  | @created _ row _ _ hdecision hfree hrow hfate hentities hadds =>
    have hin := htouched (by simp [hfate]) _ hadds.resolved
    have hadded : s.Retold touched { s with entities := s.entities ++ [row] } :=
      .add (hrow ▸ rfl) hin
    have hcounted : s.Retold touched (modifyEntity { s with entities := s.entities ++ [row] } row.id
        fun e => { e with
          observationCount := (after.observationsOf row.id).length, updatedAt := now }) :=
      hadded.trans (.modifyEntity (fun _ => rfl) (fun _ => rfl) (.inl hin))
    exact hcounted.trans (.of_rows hentities hnext)

end Store

namespace Visit

theorem retold {now : Moment} {decisions : Decisions} {touched : List Id}
    (v : Visit now.text decisions) (htouched : ∀ id, v.touched? = some id → id ∈ touched) :
    v.before.Retold touched v.after := by
  rcases v.cases with ⟨_, hafter, _⟩ | ⟨_, effect, houtcome, heffect, hadmitted⟩
  · rw [hafter]
    exact .refl _
  · have hnext := (Store.admitNode_writes houtcome).nextLe.entities
    refine hadmitted.retold hnext fun hfate id hresolved => htouched id ?_
    simp [touched?, fate?, resolved, heffect, hfate, hresolved]

end Visit

theorem Store.runImport_retold (s : Store) (now : Moment) (document : TreeDocument)
    (decisions : Decisions) (mode : ImportMode) :
    s.Retold (s.runImport now.text document decisions mode).1.touched
      (s.runImport now.text document decisions mode).2 := by
  rw [Store.runImport_eq]
  split
  · exact .refl s
  · refine Store.chained_visits.relates (fun _ => .refl _) .trans fun v hv => v.retold ?_
    intro id hid
    rw [touched_visitsReport]
    exact Text.mem_distinct.2 (List.mem_filterMap.2 ⟨v, hv, hid⟩)

/-! ## All operations -/

namespace Operation

/-- The entities that an operation creates, or that it may give another text or vector. -/
def touched (now : Timestamp) (s : Store) : Operation → List Id
  | .addEntity _ => [s.nextEntity]
  | .changeEntity id _ => [id]
  | .setEmbedding id _ => [id]
  | .runImport document decisions mode => (s.runImport now document decisions mode).1.touched
  | .mergeEntities _ target => [target]
  | .observe .. | .dropObservation _ | .relate .. | .dropRelation _ | .reparent .. | .prune .. => []

theorem perform_retold {now : Moment} {s after : Store} {operation : Operation}
    (h : operation.perform now.text s = .ok after) :
    s.Retold (operation.touched now.text s) after := by
  cases operation with
  | addEntity input =>
    simp only [perform, bind_eq_ok, Prod.exists] at h
    obtain ⟨_, _, hadd, ⟨⟩⟩ := h
    exact Store.addEntity_retold hadd
  | changeEntity id update =>
    simp only [perform, bind_eq_ok, Prod.exists] at h
    obtain ⟨_, _, hchange, ⟨⟩⟩ := h
    exact Store.changeEntity_retold hchange
  | observe id contents =>
    simp only [perform, bind_eq_ok, Prod.exists] at h
    obtain ⟨_, _, hobserve, ⟨⟩⟩ := h
    exact Store.observe_retold hobserve
  | dropObservation id => exact Store.dropObservation_retold h
  | relate source target relationType =>
    simp only [perform, Store.relate, bind_eq_ok, Prod.exists] at h
    obtain ⟨_, _, ⟨_, _, _, _, hrelate⟩, ⟨⟩⟩ := h
    exact Store.appendRelation_retold hrelate
  | dropRelation id =>
    simp only [perform, Store.dropRelation, bind_eq_ok] at h
    obtain ⟨_, _, ⟨⟩⟩ := h
    exact .of_rows rfl (Int.le_refl _)
  | setEmbedding id v => exact Store.setEmbedding_retold h
  | runImport document decisions mode =>
    cases h
    exact s.runImport_retold now document decisions mode
  | reparent node parent =>
    simp only [perform, bind_eq_ok, Prod.exists] at h
    obtain ⟨_, _, hmove, ⟨⟩⟩ := h
    exact Store.reparent_retold hmove
  | mergeEntities source target =>
    simp only [perform, bind_eq_ok, Prod.exists] at h
    obtain ⟨_, _, hmerge, ⟨⟩⟩ := h
    exact Store.mergeEntities_retold hmerge
  | prune node cascade =>
    simp only [perform, bind_eq_ok, Prod.exists] at h
    obtain ⟨_, _, hprune, ⟨⟩⟩ := h
    exact Store.prune_retold hprune

theorem outcome_continues {now : Moment} {s : Store} {operation : Operation} :
    Continues Entity.id Entity.createdAt s.entities s.nextEntity
      (operation.outcome now s).entities := by
  unfold outcome
  split
  · rename_i after h
    exact (perform_retold h).continues
  · exact .refl

end Operation

/-! ## Ids over a run -/

theorem Store.Keyed.run_writes {s : Store} (hk : s.Keyed) (steps : List (Moment × Operation)) :
    Writes s (s.run steps) := by
  induction steps generalizing s with
  | nil => exact .refl
  | cons step rest ih =>
    have hfirst : Writes s (step.2.outcome step.1 s) := Operation.outcome_writes hk
    exact hfirst.trans (ih (hfirst.keeps Write.keyed hk))

/-- Every row of a table is one of the rows `before`, with its id and what it was born with, or its
id is above all ids of the rows `past`. -/
def NewAbove {α β : Type} (id : α → Id) (birth : α → β) (past before after : List α) : Prop :=
  ∀ row ∈ after, (∃ old ∈ before, id old = id row ∧ birth old = birth row) ∨
    ∀ x ∈ past, id x < id row

theorem Continues.newAbove {α β : Type} {id : α → Id} {birth : α → β} {past before after : List α}
    {bound next : Id} (h : Continues id birth before next after)
    (hpast : Store.Ascending id past bound) (hle : bound ≤ next) :
    NewAbove id birth past before after := by
  intro row hrow
  obtain hold | hnew := h row hrow
  · exact .inl hold
  · exact .inr fun x hx =>
      Int.lt_of_lt_of_le (hpast.lt_bound x hx) (Int.le_trans hle hnew)

/-- Whatever is asked of the graph, a row that an operation adds gets an id above all that its table
held after any of the operations before, whether their rows are still there or not. -/
theorem ids_never_reused (earlier later : List (Moment × Operation)) (now : Moment)
    (operation : Operation) :
    let past := Store.run .empty earlier
    let before := past.run later
    let after := operation.outcome now before
    NewAbove Entity.id Entity.createdAt past.entities before.entities after.entities ∧
    NewAbove Observation.id Observation.birth past.observations before.observations
      after.observations ∧
    NewAbove Relation.id Relation.birth past.relations before.relations after.relations := by
  intro past before after
  have hpast : past.Keyed := (Reachable.empty.run earlier).keyed
  have hnext := (hpast.run_writes later).nextLe
  have hbefore : before.Keyed := ((Reachable.empty.run earlier).run later).keyed
  have hwrites : Store.Writes before after := Operation.outcome_writes hbefore
  exact ⟨Operation.outcome_continues.newAbove hpast.entities hnext.entities,
    hwrites.observations.newAbove hpast.observations hnext.observations,
    hwrites.relations.newAbove hpast.relations hnext.relations⟩

/-- The id of the last entity is not given again after it was deleted. -/
example :
    let now : Moment := .ofNanoseconds 0
    let s := Store.run .empty [
      (now, .addEntity { name := "first", entityType := "Note" }),
      (now, .addEntity { name := "second", entityType := "Note" }),
      (now, .prune 2 false),
      (now, .addEntity { name := "third", entityType := "Note" })]
    s.entities.map Entity.id = [1, 3] := by
  decide +kernel

end MemoryGraph
