-- SUMMARY: The operations as sequences of writes in place; when one of them is refused, no write of it stays.
import MemoryGraph.Proofs.ImportInPlace

/-!
# Operations in place

Most of the operations run inside a transaction, which goes back to the store
that it began with when one of their statements is refused. Two do not: they
write first and look afterwards how many rows were hit, and are refused when
there was none. An import is a transaction that is never refused.
-/
namespace MemoryGraph

open Text

namespace InPlace

open Store

variable {s : Store}

/-! ## Editing -/

def addEntity (now : Timestamp) (input : EntityDraft) : InPlace Entity := transaction do
  refuseWhen (fun s => (s.entityNamed? (trim input.name)).isSome) (.nameTaken (trim input.name))
  let entity ← insertEntity now input
  let _ ← insertObservations now entity.id (input.observations.map fun content => { content })
  write fun s => s.refreshCount now entity.id
  require fun s => s.existing entity.id

def changeEntity (now : Timestamp) (id : Id) (update : EntityChange) : InPlace Entity :=
  transaction do
    let current ← require fun s => s.existing id
    let name ← require fun s => s.renamed current update.name
    let entityType ← require fun _ => retyped current update.entityType
    let aliases := if update.aliases.isSome then nonBlank? update.aliases else current.aliases
    let description :=
      if update.description.isSome then nonBlank? update.description else current.description
    let _ ← updateEntityRow id fun e =>
      { e with name, entityType, aliases, description, updatedAt := now }
    require fun s => s.existing id

def observe (now : Timestamp) (id : Id) (contents : List String) : InPlace (List Observation) :=
  transaction do
    let _ ← require fun s => s.existing id
    let known ← ask fun s => s.contentsOf id
    let added ← insertUnseen now id known contents
    write fun s => s.refreshCount now id
    return added

def dropObservation (now : Timestamp) (id : Id) : InPlace Unit := transaction do
  let row ← require fun s =>
    match s.observations.find? (fun o => o.id = id) with
    | none => .error (.notFound (.observation id))
    | some row => .ok row
  write fun s => s.removeObservation id
  write fun s => s.refreshCount now row.entityId

def relate (now : Timestamp) (source target : Id) (relationType : String) :
    InPlace (Option Relation) := transaction do
  let _ ← require fun s => s.existing source
  let _ ← require fun s => s.existing target
  insertRelation now source target relationType

/-- A single statement, without a transaction. -/
def dropRelation (id : Id) : InPlace Unit :=
  mustHit (deleteRelationRow id) (.notFound (.relation id))

/-- A single statement, without a transaction. -/
def setEmbedding (id : Id) (v : Embedding) : InPlace Unit :=
  mustHit (updateEntityRow id fun e => { e with embedding := some v.toBlob })
    (.notFound (.entity id))

/-! ## Reshaping -/

def removeRelations : List Relation → InPlace Unit
  | [] => pure ()
  | r :: rest => do
    let _ ← deleteRelationRow r.id
    removeRelations rest

def reparent (now : Timestamp) (node parent : Id) : InPlace Relation :=
  if node = parent then throw .moveUnderItself
  else transaction do
    let _ ← require fun s => s.existing node
    let _ ← require fun s => s.existing parent
    refuseWhen (fun s => (s.relationBetween? node parent usualUpwardType).isSome)
      (.alreadyUnder node parent)
    let parents ← ask fun s => s.relationsToParents node
    removeRelations parents
    match ← insertRelation now node parent usualUpwardType with
    | none => throw (.vanishedRelation node parent)
    | some relation => return relation

def redirect (relation : Relation) (source target : Id) : InPlace Unit :=
  statement fun s => noResult (s.redirectRelation relation source target)

def repointOne (source target : Id) (relation : Relation) (count : Repointed) :
    InPlace Repointed := do
  let from' := substitute source target relation.source
  let to' := substitute source target relation.target
  if from' = to' then
    let _ ← deleteRelationRow relation.id
    return { count with dropped := count.dropped + 1 }
  else
    match ← ask fun s => s.relationBetween? from' to' relation.relationType with
    | none =>
      redirect relation from' to'
      return { count with kept := count.kept + 1 }
    | some existing =>
      let count := { count with dropped := count.dropped + 1 }
      if existing.id < relation.id then
        let _ ← deleteRelationRow relation.id
        return count
      else
        let _ ← deleteRelationRow existing.id
        redirect relation from' to'
        return { count with kept := count.kept + 1 }

def repointAll (source target : Id) : List Relation → Repointed → InPlace Repointed
  | [], count => pure count
  | relation :: rest, count => do
    let count ← repointOne source target relation count
    repointAll source target rest count

def deleteEntity (id : Id) : InPlace Unit := mustHit (deleteEntityRow id) (.notDeleted id)

def mergeEntities (now : Timestamp) (sourceId targetId : Id) : InPlace MergeEffect :=
  if sourceId = targetId then throw .mergeIntoItself
  else transaction do
    let source ← require fun s => s.existing sourceId
    let target ← require fun s => s.existing targetId
    let aliases := mergedAliases source target
    let _ ← updateEntityRow targetId fun e => { e with aliases, updatedAt := now }
    let moved ← statement fun s =>
      .ok ((s.observationsOf sourceId).length, s.handOverObservations sourceId targetId)
    let relations ← ask fun s => s.relationsAt sourceId
    let count ← repointAll sourceId targetId relations {}
    write fun s => s.refreshCount now targetId
    deleteEntity sourceId
    let entity ← require fun s => s.existing targetId
    return { source := sourceId, target := targetId, observationsMoved := moved,
             relationsRepointed := count.kept, relationsDropped := count.dropped, aliases, entity }

def deleteAll : List Id → InPlace Unit
  | [] => pure ()
  | id :: rest => do
    deleteEntity id
    deleteAll rest

def prune (node : Id) (cascade : Bool) : InPlace Nat := transaction do
  let _ ← require fun s => s.existing node
  let doomed ←
    if cascade then ask fun s => s.subtree node
    else do
      write fun s => s.releaseChildren node
      pure [node]
  deleteAll doomed.reverse
  return doomed.length

/-! ## The operations -/

section Operations

variable {now : Timestamp} {id : Id}

theorem addEntity_settles {input : EntityDraft} (hs : s.Keyed) :
    (addEntity now input).runOn s = settle s (s.addEntity now input) := by
  refine Performs.of_transaction ?_
  unfold Store.addEntity
  refine Performs.of_refuseWhen fun hfree => ?_
  refine (insertEntity_performs hs (by simpa using hfree)).bind fun entity first _ => ?_
  refine (insertObservations_performs _).bind fun rows second _ => ?_
  refine Performs.done rfl ?_
  exact performs_require _

theorem changeEntity_settles {update : EntityChange} :
    (changeEntity now id update).runOn s = settle s (s.changeEntity now id update) := by
  refine Performs.of_transaction ?_
  unfold Store.changeEntity
  refine Performs.of_require fun current _ => ?_
  refine Performs.of_require fun name _ => ?_
  refine Performs.of_require fun entityType _ => ?_
  refine Performs.done rfl ?_
  exact performs_require _

theorem observe_settles {contents : List String} :
    (observe now id contents).runOn s = settle s (s.observe now id contents) := by
  refine Performs.of_transaction ?_
  unfold Store.observe
  refine Performs.of_require fun e _ => ?_
  refine Performs.of_ask ?_
  refine (insertUnseen_performs _ _).bind fun added mid _ => ?_
  refine Performs.done rfl ?_
  exact performs_pure _

theorem dropObservation_settles :
    (dropObservation now id).runOn s =
      settle s (noResult (s.dropObservation now id)) := by
  refine Performs.of_transaction ?_
  have hsplit : noResult (s.dropObservation now id) =
      (match s.observations.find? (fun o => o.id = id) with
        | none => .error (.notFound (.observation id))
        | some row => .ok row) >>= fun row =>
          .ok ((), (s.removeObservation id).refreshCount now row.entityId) := by
    unfold Store.dropObservation
    cases s.observations.find? (fun o => o.id = id) <;> rfl
  rw [hsplit]
  exact Performs.of_require fun row _ => Performs.done rfl (performs_statement _)

theorem relate_settles {source target : Id} {relationType : String} (hs : s.Keyed) :
    (relate now source target relationType).runOn s =
      settle s (s.relate now source target relationType) := by
  refine Performs.of_transaction ?_
  unfold Store.relate
  refine Performs.of_require fun e _ => ?_
  refine Performs.of_require fun e _ => ?_
  exact insertRelation_performs hs

/-- A relation that is not there is not removed. -/
theorem dropRelation_settles :
    (dropRelation id).runOn s = settle s (noResult (s.dropRelation id)) := by
  rw [dropRelation, deleteRelationRow, runOn_mustHit]
  unfold Store.dropRelation existingRelation relation?
  cases hfind : s.relations.find? (fun r => r.id = id) with
  | none =>
    -- The write is not taken back, but there was no row for it to change.
    have hnone : ∀ r ∈ s.relations, r.id ≠ id := by simpa using hfind
    have hsame : s.removeRelation id = s := by
      unfold removeRelation
      rw [List.filter_eq_self.2 (by simpa using hnone)]
    dsimp only
    rw [hsame]
    rfl
  | some r => rfl

/-- An entity that is not there is not changed. -/
theorem setEmbedding_settles {v : Embedding} :
    (setEmbedding id v).runOn s = settle s (noResult (s.setEmbedding id v)) := by
  rw [setEmbedding, updateEntityRow, runOn_mustHit]
  unfold Store.setEmbedding existing entity?
  cases hfind : s.entities.find? (fun e => e.id = id) with
  | none =>
    have hnone : ∀ e ∈ s.entities, e.id ≠ id := by simpa using hfind
    have hsame (change : Entity → Entity) : s.modifyEntity id change = s := by
      unfold modifyEntity
      rw [List.map_congr_left fun e he => if_neg (hnone e he), List.map_id']
    dsimp only
    rw [hsame]
    rfl
  | some e => rfl

theorem removeRelations_performs (relations : List Relation) :
    Performs (removeRelations relations) s
      (.ok ((), relations.foldl (fun s r => s.removeRelation r.id) s)) := by
  induction relations generalizing s with
  | nil => exact performs_pure ()
  | cons r rest ih => exact Performs.done rfl ih

theorem reparent_settles {node parent : Id} (hs : s.Keyed) :
    (reparent now node parent).runOn s = settle s (s.reparent now node parent) := by
  unfold reparent Store.reparent
  by_cases hself : node = parent
  · rw [if_pos hself, if_pos hself]
    rfl
  · rw [if_neg hself, if_neg hself]
    refine Performs.of_transaction ?_
    refine Performs.of_require fun _ _ => ?_
    refine Performs.of_require fun _ _ => ?_
    refine Performs.of_refuseWhen fun _ => ?_
    refine Performs.of_ask ?_
    have hreleased : (s.releaseFromParents node).Keyed :=
      releaseFromParents_keeps (P := Keyed) (fun t id ht => (removeRelation_write t id).keyed ht)
        node hs
    refine (removeRelations_performs _).bind (f := fun _ => _) fun _ _ h => ?_
    cases h
    refine (insertRelation_performs hreleased).bind fun added after _ => ?_
    cases added with
    | none => exact performs_throw
    | some relation => exact performs_pure relation

theorem redirect_performs {relation : Relation} {source target : Id} :
    Performs (redirect relation source target) s
      (noResult (s.redirectRelation relation source target)) :=
  performs_statement _

theorem repointOne_performs {source target : Id} {relation : Relation} {count : Repointed} :
    Performs (repointOne source target relation count) s
      (s.repointOne source target relation count) := by
  unfold repointOne Store.repointOne
  dsimp only
  split
  · exact Performs.done rfl (performs_pure _)
  · refine Performs.of_ask ?_
    cases s.relationBetween? (substitute source target relation.source)
        (substitute source target relation.target) relation.relationType with
    | none => exact redirect_performs.andThen fun _ _ => performs_pure _
    | some existing =>
      dsimp only
      split
      · exact Performs.done rfl (performs_pure _)
      · exact Performs.done rfl (redirect_performs.andThen fun _ _ => performs_pure _)

theorem repointAll_performs {source target : Id} {relations : List Relation} {count : Repointed} :
    Performs (repointAll source target relations count) s
      (s.repointAll source target relations count) := by
  induction relations generalizing count s with
  | nil => exact performs_pure count
  | cons relation rest ih => exact repointOne_performs.bind fun _ _ _ => ih

theorem deleteEntity_performs :
    Performs (deleteEntity id) s (noResult (s.deleteEntity id)) := by
  unfold Performs
  rw [deleteEntity, deleteEntityRow, runOn_mustHit]
  unfold Store.deleteEntity entity?
  cases s.entities.find? (fun e => e.id = id) <;> rfl

theorem mergeEntities_settles {source target : Id} :
    (mergeEntities now source target).runOn s = settle s (s.mergeEntities now source target) := by
  unfold mergeEntities Store.mergeEntities
  by_cases hself : source = target
  · rw [if_pos hself, if_pos hself]
    rfl
  · rw [if_neg hself, if_neg hself]
    refine Performs.of_transaction ?_
    refine Performs.of_require fun giver _ => ?_
    refine Performs.of_require fun taker _ => ?_
    refine Performs.done rfl ?_
    refine Performs.done rfl ?_
    refine Performs.of_ask ?_
    refine repointAll_performs.bind fun count linked _ => ?_
    refine Performs.done rfl ?_
    refine deleteEntity_performs.andThen fun after _ => ?_
    refine Performs.of_require fun entity _ => ?_
    exact performs_pure _

theorem deleteAll_performs (ids : List Id) :
    Performs (deleteAll ids) s (noResult (Store.deleteAll ids s)) := by
  induction ids generalizing s with
  | nil => exact performs_pure ()
  | cons id rest ih =>
    have hsplit : noResult (Store.deleteAll (id :: rest) s) =
        s.deleteEntity id >>= fun mid => noResult (Store.deleteAll rest mid) := by
      rw [Store.deleteAll]
      cases s.deleteEntity id <;> rfl
    rw [hsplit]
    exact deleteEntity_performs.andThen fun mid _ => ih

theorem prune_settles {node : Id} {cascade : Bool} :
    (prune node cascade).runOn s = settle s (s.prune node cascade) := by
  refine Performs.of_transaction ?_
  unfold Store.prune
  refine Performs.of_require fun _ _ => ?_
  cases cascade with
  | true =>
    refine Performs.of_ask ?_
    exact (deleteAll_performs _).andThen fun after _ => performs_pure _
  | false =>
    refine Performs.done (a := ()) rfl ?_
    exact (deleteAll_performs _).andThen fun after _ => performs_pure _

theorem runImport_settles {now : Moment} {document : TreeDocument} {decisions : Decisions}
    {mode : ImportMode} (hs : s.Keyed) :
    (Session.alone (Session.runImport now.text document decisions mode)).runOn s =
      settle s (.ok (s.runImport now.text document decisions mode)) :=
  Session.alone_runOn (Session.runImport_runOn hs document mode)

/-- Leaving the result out changes neither the refusal nor what is left. -/
theorem settles_discard {α : Type} {p : InPlace α} {x : Except Refusal (α × Store)}
    (h : p.runOn s = settle s x) :
    (do let _ ← p : InPlace Unit).runOn s = settle s (noResult do return (← x).2) := by
  show (p >>= fun _ => pure ()).runOn s = _
  rw [runOn_bind, h]
  cases x <;> rfl

end Operations

end InPlace

/-! ## Refused operations -/

namespace Operation

open InPlace

/-- An operation as it is carried out on a database. An import goes back by itself to where it was
before a node that fails, and is never refused. -/
def inPlace (now : Timestamp) : Operation → InPlace Unit
  | .addEntity input => do let _ ← InPlace.addEntity now input
  | .changeEntity id update => do let _ ← InPlace.changeEntity now id update
  | .observe id contents => do let _ ← InPlace.observe now id contents
  | .dropObservation id => InPlace.dropObservation now id
  | .relate source target relationType => do
    let _ ← InPlace.relate now source target relationType
  | .dropRelation id => InPlace.dropRelation id
  | .setEmbedding id v => InPlace.setEmbedding id v
  | .runImport document decisions mode => do
    let _ ← Session.alone (Session.runImport now document decisions mode)
  | .reparent node parent => do let _ ← InPlace.reparent now node parent
  | .mergeEntities source target => do let _ ← InPlace.mergeEntities now source target
  | .prune node cascade => do let _ ← InPlace.prune node cascade

/-- Carried out in place, every operation is done as a whole or not at all. -/
theorem inPlace_settles {s : Store} (hs : s.Keyed) (now : Moment) (operation : Operation) :
    (operation.inPlace now.text).runOn s = settle s (noResult (operation.perform now.text s)) := by
  cases operation with
  | addEntity input => exact settles_discard (addEntity_settles hs)
  | changeEntity id update => exact settles_discard changeEntity_settles
  | observe id contents => exact settles_discard observe_settles
  | dropObservation id => exact dropObservation_settles
  | relate source target relationType => exact settles_discard (relate_settles hs)
  | dropRelation id => exact dropRelation_settles
  | setEmbedding id v => exact setEmbedding_settles
  | runImport document decisions mode => exact settles_discard (runImport_settles hs)
  | reparent node parent => exact settles_discard (reparent_settles hs)
  | mergeEntities source target => exact settles_discard mergeEntities_settles
  | prune node cascade => exact settles_discard prune_settles

end Operation

/-- An operation that is refused on a reachable store has written nothing that stays: the tables and
the next id of each are as they were. One that is not refused leaves what it stands for. -/
theorem untouched_of_refused {s : Store} (h : Reachable s) (now : Moment) (operation : Operation) :
    match (operation.inPlace now.text).runOn s with
    | (.ok _, after) => operation.perform now.text s = .ok after
    | (.error cause, after) => operation.perform now.text s = .error cause ∧ after = s := by
  rw [operation.inPlace_settles h.sound.keyed]
  cases operation.perform now.text s with
  | ok after => rfl
  | error cause => exact ⟨rfl, rfl⟩

/-- Of two observations the second is blank: the first one is written before the second is refused,
and the operation takes it back. -/
theorem untouched_by_blank_observation :
    let now : Moment := .ofNanoseconds 0
    let s := Store.run .empty [(now, .addEntity { name := "node", entityType := "Note" })]
    ((InPlace.insertUnseen now.text 1 [] ["fact", " "]).runOn s).2 ≠ s ∧
      (Operation.inPlace now.text (.observe 1 ["fact", " "])).runOn s =
        (.error (.invalidField .observation .blank), s) := by
  intro now s
  have hrefused : Operation.perform now.text s (.observe 1 ["fact", " "]) =
      .error (.invalidField .observation .blank) := by decide +kernel
  refine ⟨by decide +kernel, ?_⟩
  have hs : Reachable s := Reachable.empty.run _
  have h := untouched_of_refused hs now (.observe 1 ["fact", " "])
  rcases hrun : (Operation.inPlace now.text (.observe 1 ["fact", " "])).runOn s with ⟨_ | _, after⟩
  · rw [hrun] at h
    obtain ⟨hcause, rfl⟩ := h
    cases hrefused.symm.trans hcause
    rfl
  · rw [hrun] at h
    cases hrefused.symm.trans h

end MemoryGraph
