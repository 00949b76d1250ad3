-- SUMMARY: What merging two entities makes of the tables: a quotient of the relations, and one entity with what both had.
import MemoryGraph.Proofs.Handover

/-!
# Merging entities

A merge hands over the observations and the relations of an entity and removes
it. Since no relation is left at it by then, the removal takes nothing else
along, and the relations are those that outlived the handover.
-/
namespace MemoryGraph

open Store

namespace Store

/-- What a merge makes of the tables. -/
structure Merged (now : Timestamp) (source target : Id) (s after : Store) (effect : MergeEffect) :
    Prop where
  /-- The relations are those of before with `target` in place of `source`, but for loops. -/
  relation : ∀ f t type, (f, t, type) ∈ after.relations.map Relation.triple ↔
    f ≠ t ∧ ∃ r ∈ s.relations, substitute source target r.source = f ∧
      substitute source target r.target = t ∧ r.relationType = type
  /-- None is there twice. -/
  once : (after.relations.map Relation.triple).Nodup
  /-- Each keeps the id and the moment of the lowest of those that became like it. -/
  lowest : ∀ row ∈ after.relations, ∃ r ∈ s.relations, row.id = r.id ∧
    row.createdAt = r.createdAt ∧ row.triple = (r.handOver source target).triple ∧
    ∀ x ∈ s.relations, (x.handOver source target).triple = row.triple → r.id ≤ x.id
  observations : after.observations = s.observations.map fun o =>
    if o.entityId = source then { o with entityId := target } else o
  gone : ¬ after.HasEntity source
  entities : after.entities = (s.entities.filter fun e => e.id ≠ source).map fun e =>
    if e.id = target then
      { e with
        aliases := effect.aliases
        observationCount := (after.observationsOf target).length
        updatedAt := now }
    else e
  dropped : effect.relationsDropped + after.relations.length = s.relations.length
  repointed : effect.relationsRepointed =
    (s.relationsAt source).countP fun r => r.id ∈ after.relations.map Relation.id
  moved : effect.observationsMoved = (s.observationsOf source).length

/-- Rows that are changed twice and then filtered by their id are those left by the filter,
changed twice. -/
theorem filter_changed_twice {rows : List Entity} {source target : Id}
    {first second : Entity → Entity}
    (hfirst : ∀ e, (first e).id = e.id) (hsecond : ∀ e, (second e).id = e.id) :
    (((rows.map fun e => if e.id = target then first e else e).map fun e =>
      if e.id = target then second e else e).filter fun e => e.id ≠ source) =
    (rows.filter fun e => e.id ≠ source).map fun e =>
      if e.id = target then second (first e) else e := by
  induction rows with
  | nil => rfl
  | cons e rest ih =>
    by_cases htarget : e.id = target <;> by_cases hsource : e.id = source <;>
      simp_all

/-- What a merge gives, part by part. -/
theorem mergeEntities_eq_ok (now : Timestamp) {s : Store} (hs : s.Sound) {source target : Id}
    (hne : source ≠ target) (hsource : s.HasEntity source) (htarget : s.HasEntity target) :
    ∃ effect after, s.mergeEntities now source target = .ok (effect, after) ∧
      after.relations = (s.midway source target []).relations ∧
      (after.observations = s.observations.map fun o =>
        if o.entityId = source then { o with entityId := target } else o) ∧
      (after.entities = (s.entities.filter fun e => e.id ≠ source).map fun e =>
        if e.id = target then
          { e with
            aliases := effect.aliases
            observationCount := (after.observationsOf target).length
            updatedAt := now }
        else e) ∧
      effect.observationsMoved = (s.observationsOf source).length ∧
      Tallied s after ((s.relationsAt source).countP fun r =>
          r.Outlives source target s.relations [])
        {} ⟨effect.relationsRepointed, effect.relationsDropped⟩ := by
  obtain ⟨giver, hgiver⟩ := hsource.exists_entity?
  obtain ⟨taker, htaker⟩ := htarget.exists_entity?
  let named := s.modifyEntity target fun e =>
    { e with aliases := mergedAliases giver taker, updatedAt := now }
  let told := named.handOverObservations source target
  let linked := told.midway source target []
  let counted := linked.refreshCount now target
  have hstays {id : Id} (h : s.HasEntity id) : told.HasEntity id :=
    hasEntity_modifyEntity target _ (fun _ => rfl) h
  have htold : told.Sound := by
    have haliases := setAliases_write now s target (nonBlank?_mergedAliases giver taker)
    exact hs.writes (.head haliases (.single (.handOver (hasEntity_modifyEntity target _
      (fun _ => rfl) htarget))))
  -- The relations are handed over, after which none is left at `source`.
  obtain ⟨count, hrepoint, htally⟩ := repointAll_midway htold.keyed htold.linked hne
    (hstays htarget) (waiting_relationsAt htold.keyed) {}
  rw [midway_relationsAt htold.linked] at hrepoint htally
  have hrelations :
      (counted.removeEntity source).relations = (s.midway source target []).relations := by
    refine List.filter_eq_self.2 fun y hy => ?_
    obtain ⟨r, _, _, rfl⟩ := mem_midway_nil.1 hy
    simp [Relation.touches, Relation.handOver, substitute_ne hne]
  have hobservations : (counted.removeEntity source).observations = s.observations.map fun o =>
      if o.entityId = source then { o with entityId := target } else o := by
    refine List.filter_eq_self.2 fun o ho => ?_
    obtain ⟨o, _, rfl⟩ := List.mem_map.1 ho
    split
    · simpa using hne.symm
    · simpa
  have hentities : (counted.removeEntity source).entities =
      (s.entities.filter fun e => e.id ≠ source).map fun e =>
        if e.id = target then
          { e with
            aliases := mergedAliases giver taker
            observationCount := ((counted.removeEntity source).observationsOf target).length
            updatedAt := now }
        else e := by
    have hcount : (counted.removeEntity source).observationsOf target =
        linked.observationsOf target :=
      congrArg (List.filter _) hobservations
    rw [hcount]
    exact filter_changed_twice (fun _ => rfl) (fun _ => rfl)
  have hdelete : counted.deleteEntity source = .ok (counted.removeEntity source) := by
    have hsome := isSome_entity?_iff.2
      (hasEntity_modifyEntity target (fun e =>
        { e with observationCount := (linked.observationsOf target).length, updatedAt := now })
        (fun _ => rfl) (hstays hsource))
    exact if_pos hsome
  obtain ⟨entity, hentity⟩ : ∃ e, (counted.removeEntity source).entity? target = some e := by
    refine HasEntity.exists_entity? (hasEntity_removeEntity hne.symm ?_)
    exact hasEntity_modifyEntity target _ (fun _ => rfl) (hstays htarget)
  refine ⟨⟨source, target, (s.observationsOf source).length, count.kept, count.dropped,
    mergedAliases giver taker, entity⟩, counted.removeEntity source, ?_, hrelations, hobservations,
    hentities, rfl, ?_⟩
  · simp only [mergeEntities, guard_eq_ok, bind_eq_ok, Prod.exists]
    exact ⟨hne, giver, existing_eq_ok.2 hgiver, taker, existing_eq_ok.2 htaker, count, linked,
      hrepoint, _, hdelete, entity, existing_eq_ok.2 hentity, rfl⟩
  · refine ⟨htally.kept, ?_⟩
    rw [hrelations]
    exact htally.dropped

end Store

/-- Merging two entities of a reachable store succeeds. The relations become the quotient of those
of before, each with its lowest id, and all else is as it was but for what goes to the target. -/
theorem merged_of_reachable {s : Store} (h : Reachable s) (now : Timestamp) {source target : Id}
    (hne : source ≠ target) (hsource : s.HasEntity source) (htarget : s.HasEntity target) :
    ∃ effect after, s.mergeEntities now source target = .ok (effect, after) ∧
      Merged now source target s after effect := by
  have hs := h.sound
  obtain ⟨effect, after, hok, hrelations, hobservations, hentities, hmoved, htally⟩ :=
    mergeEntities_eq_ok now hs hne hsource htarget
  have hafter := hs.writes (mergeEntities_writes hs.keyed hok)
  have hmem {row : Relation} : row ∈ after.relations ↔ ∃ r ∈ s.relations,
      r.Outlives source target s.relations [] ∧ row = r.handOver source target := by
    rw [hrelations]
    exact mem_midway_nil
  refine ⟨effect, after, hok, ?_⟩
  constructor
  case relation =>
    intro f t type
    constructor
    · intro htriple
      obtain ⟨row, hrow, hends⟩ := List.mem_map.1 htriple
      obtain ⟨r, hr, hout, rfl⟩ := hmem.1 hrow
      cases hends
      exact ⟨hout.1, r, hr, rfl, rfl, rfl⟩
    · rintro ⟨hloop, r, hr, rfl, rfl, rfl⟩
      obtain ⟨o, ho, _, hout, halike⟩ := Relation.exists_outlives target hr List.not_mem_nil hloop
      exact List.mem_map.2 ⟨_, hmem.2 ⟨o, ho, hout, rfl⟩, halike⟩
  case once => exact hafter.linked.triples
  case lowest =>
    intro row hrow
    obtain ⟨r, hr, hout, rfl⟩ := hmem.1 hrow
    exact ⟨r, hr, rfl, rfl, rfl, fun x hx heq => hout.2 x hx List.not_mem_nil heq⟩
  case observations => exact hobservations
  case gone =>
    rintro ⟨e, he, hid⟩
    rw [hentities] at he
    obtain ⟨row, hrow, rfl⟩ := List.mem_map.1 he
    have hkept : row.id ≠ source := by simpa using (List.mem_filter.1 hrow).2
    split at hid <;> exact hkept hid
  case entities => exact hentities
  case dropped => exact htally.dropped.trans (Nat.zero_add _)
  case repointed =>
    refine (htally.kept.trans (Nat.zero_add _)).trans (List.countP_congr fun r hr => ?_)
    have hrow := (List.mem_filter.1 hr).1
    simp only [decide_eq_true_eq]
    constructor
    · intro hout
      exact List.mem_map.2 ⟨_, hmem.2 ⟨r, hrow, hout, rfl⟩, rfl⟩
    · intro hid
      obtain ⟨row, hrow', hid⟩ := List.mem_map.1 hid
      obtain ⟨x, hx, hout, rfl⟩ := hmem.1 hrow'
      rwa [hs.keyed.relations.unique hx hrow hid] at hout
  case moved => exact hmoved

/-- Two entities under one parent, the first also under the second: merging them makes a loop of the
one relation and the same relation of the other two. -/
theorem merged_of_siblings :
    let now : Moment := .ofNanoseconds 0
    let s := Store.run .empty [
      (now, .addEntity { name := "first", entityType := "Note" }),
      (now, .addEntity { name := "second", entityType := "Note" }),
      (now, .addEntity { name := "parent", entityType := "Project" }),
      (now, .relate 2 3 "part_of"),
      (now, .relate 1 2 "depends_on"),
      (now, .relate 1 3 "part_of")]
    (1 : Id) ≠ 2 ∧ s.HasEntity 1 ∧ s.HasEntity 2 ∧
      ∃ effect after, s.mergeEntities now.text 1 2 = .ok (effect, after) ∧
        Merged now.text 1 2 s after effect := by
  intro now s
  have hfirst : s.HasEntity 1 := by decide +kernel
  have hsecond : s.HasEntity 2 := by decide +kernel
  exact ⟨by decide, hfirst, hsecond,
    merged_of_reachable (Reachable.empty.run _) now.text (by decide) hfirst hsecond⟩

end MemoryGraph
