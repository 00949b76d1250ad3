-- SUMMARY: The cached count of the observations of every entity is right after every operation.
import MemoryGraph.Proofs.Admission

/-!
# Cached counts

Every entity carries the number of its observations. A write to the observations
of an entity leaves this number stale until it is taken again. What goes from
one write to the next is therefore that all counts are right but for those of
some stale entities; every operation has counted these again, or removed them,
when it ends.
-/
namespace MemoryGraph

namespace Store

/-- The cached counts are right, but for those of the `stale` entities. -/
def CountedBut (s : Store) (stale : List Id) : Prop :=
  ∀ e ∈ s.entities, e.id ∉ stale → e.observationCount = (s.observationsOf e.id).length

/-- All cached counts are right. -/
def Counted (s : Store) : Prop := s.CountedBut []

theorem counted_empty : Counted empty := by
  simp [Counted, CountedBut, empty]

/-! ## Writes -/

namespace CountedBut

variable {s after : Store} {stale : List Id} {id : Id}

theorem cons (h : s.CountedBut stale) (id : Id) : s.CountedBut (id :: stale) := by
  intro e he hfresh
  apply h e he
  exact fun hstale => hfresh (List.mem_cons_of_mem _ hstale)

/-- Counts do not depend on relations. -/
theorem of_rows (h : s.CountedBut stale) (hentities : after.entities = s.entities)
    (hobservations : after.observations = s.observations) : after.CountedBut stale := by
  simpa [CountedBut, observationsOf, hentities, hobservations] using h

theorem modifyEntity {change : Entity → Entity} (h : s.CountedBut stale)
    (hid : ∀ e, (change e).id = e.id)
    (hcount : ∀ e, (change e).observationCount = e.observationCount) :
    (s.modifyEntity id change).CountedBut stale := by
  intro e he hfresh
  obtain ⟨row, hrow, rfl⟩ := List.mem_map.1 he
  have hrowid : (if row.id = id then change row else row).id = row.id := by
    split <;> simp [hid]
  have hrowcount : (if row.id = id then change row else row).observationCount
      = row.observationCount := by
    split <;> simp [hcount]
  simp only [hrowid, hrowcount] at hfresh ⊢
  exact h row hrow hfresh

/-- Taking a count again makes it right. -/
theorem refreshCount (now : Timestamp) (h : s.CountedBut (id :: stale)) :
    (s.refreshCount now id).CountedBut stale := by
  intro e he hfresh
  obtain ⟨row, hrow, rfl⟩ := List.mem_map.1 he
  by_cases hid : row.id = id
  · simp only [hid, if_true]
    rfl
  · simp only [hid, if_false] at hfresh ⊢
    apply h row hrow
    simp [hid, hfresh]

theorem appendEntity {now : Timestamp} {input : EntityDraft} {row : Entity}
    (h : s.CountedBut stale) (hok : s.appendEntity now input = .ok (row, after)) :
    after.CountedBut (row.id :: stale) := by
  obtain ⟨_, _, _, rfl⟩ := appendEntity_eq_ok hok
  intro e he hfresh
  simp only [List.mem_append, List.mem_singleton] at he
  rcases he with he | rfl
  · exact h.cons row.id e he hfresh
  · simp at hfresh

theorem appendObservations {now : Timestamp} {drafts : List ObservationDraft}
    {rows : List Observation} (h : s.CountedBut (id :: stale))
    (hok : Store.appendObservations now id drafts s = .ok (rows, after)) :
    after.CountedBut (id :: stale) := by
  obtain ⟨hnoted, rfl⟩ := appendObservations_eq_ok hok
  intro e he hfresh
  have hnone : rows.filter (fun row => row.entityId = e.id) = [] := by
    apply List.filter_eq_nil_iff.2
    rintro row hrow howner
    simp only [hnoted.owner row hrow, decide_eq_true_eq] at howner
    simp [howner] at hfresh
  simpa [observationsOf, hnone] using h e he hfresh

theorem removeObservation (h : s.CountedBut stale) (hk : s.Keyed) {row : Observation}
    (hrow : row ∈ s.observations) :
    (s.removeObservation row.id).CountedBut (row.entityId :: stale) := by
  intro e he hfresh
  simp only [List.mem_cons, not_or] at hfresh
  have hkept : (s.removeObservation row.id).observationsOf e.id = s.observationsOf e.id := by
    simp only [observationsOf, Store.removeObservation, List.filter_filter]
    apply List.filter_congr
    intro o ho
    have hother : o.entityId = e.id → o.id ≠ row.id := by
      intro howner hid
      apply hfresh.1
      rw [← howner, hk.observations.unique ho hrow hid]
    simpa using hother
  rw [hkept]
  exact h e he hfresh.2

theorem handOver {source target : Id} (h : s.CountedBut stale) :
    (s.handOverObservations source target).CountedBut (target :: source :: stale) := by
  intro e he hfresh
  simp only [List.mem_cons, not_or] at hfresh
  obtain ⟨htarget, hsource, hfresh⟩ := hfresh
  have hsame : ((s.handOverObservations source target).observationsOf e.id).length
      = (s.observationsOf e.id).length := by
    simp only [observationsOf, handOverObservations, ← List.countP_eq_length_filter,
      List.countP_map]
    apply List.countP_congr
    intro o _
    by_cases howner : o.entityId = source
    · simp [howner, Ne.symm htarget, Ne.symm hsource]
    · simp [howner]
  rw [hsame]
  exact h e he hfresh

theorem removeEntity (h : s.CountedBut (id :: stale)) : (s.removeEntity id).CountedBut stale := by
  intro e he hfresh
  obtain ⟨hmem, hid⟩ := List.mem_filter.1 he
  have hne : e.id ≠ id := by simpa using hid
  have hkept : (s.removeEntity id).observationsOf e.id = s.observationsOf e.id := by
    simp only [observationsOf, Store.removeEntity, List.filter_filter]
    apply List.filter_congr
    intro o _
    by_cases howner : o.entityId = e.id <;> simp [howner, hne]
  rw [hkept]
  apply h e hmem
  simp [hne, hfresh]

end CountedBut

/-! ## Editing records -/

section Operations

variable {s after : Store} {now : Timestamp}

theorem addEntity_counted {input : EntityDraft} {e : Entity} (hs : s.Counted)
    (h : s.addEntity now input = .ok (e, after)) : after.Counted := by
  simp only [addEntity, guard_eq_ok, bind_eq_ok, Prod.exists] at h
  obtain ⟨_, row, first, hrow, rows, second, hrows, _, _, h⟩ := h
  cases h
  apply CountedBut.refreshCount
  exact (hs.appendEntity hrow).appendObservations hrows

theorem changeEntity_counted {id : Id} {update : EntityChange} {e : Entity} (hs : s.Counted)
    (h : s.changeEntity now id update = .ok (e, after)) : after.Counted := by
  simp only [changeEntity, bind_eq_ok] at h
  obtain ⟨_, _, _, _, _, _, _, _, h⟩ := h
  cases h
  exact hs.modifyEntity (fun _ => rfl) fun _ => rfl

theorem observe_counted {id : Id} {contents : List String} {rows : List Observation}
    (hs : s.Counted) (h : s.observe now id contents = .ok (rows, after)) : after.Counted := by
  simp only [observe, bind_eq_ok, Prod.exists] at h
  obtain ⟨_, _, added, mid, hadded, h⟩ := h
  cases h
  apply CountedBut.refreshCount
  exact (hs.cons id).appendObservations hadded

theorem dropObservation_counted {id : Id} (hk : s.Keyed) (hs : s.Counted)
    (h : s.dropObservation now id = .ok after) : after.Counted := by
  unfold dropObservation at h
  split at h
  · cases h
  · rename_i row hrow
    cases h
    obtain ⟨hmem, rfl⟩ := hk.observations.find?_eq_some.1 hrow
    apply CountedBut.refreshCount
    exact hs.removeObservation hk hmem

theorem appendRelation_counted {source target : Id} {relationType : String}
    {added : Option Relation} (hs : s.Counted)
    (h : s.appendRelation now source target relationType = .ok (added, after)) :
    after.Counted := by
  obtain ⟨hentities, hobservations, _⟩ := appendRelation_triples h
  exact hs.of_rows hentities hobservations

/-! ## Imports -/

theorem linkToParent_counted {node : TreeNode} {id : Id} {parent : Option Id} {count : Nat}
    (hs : s.Counted) (h : s.linkToParent now node id parent = .ok (count, after)) :
    after.Counted := by
  obtain ⟨_, _, rfl, _⟩ := linkToParent_eq_ok h
  exact hs.of_rows rfl rfl

theorem absorbUnder_counted {node : TreeNode} {target : Entity} {parent : Option Id}
    {effect : NodeEffect} (hs : s.Counted)
    (h : s.absorbUnder now node target parent = .ok (effect, after)) : after.Counted := by
  simp only [absorbUnder, absorbNode, bind_eq_ok, Prod.exists] at h
  obtain ⟨_, _, ⟨rows, last, hrows, hcount⟩, _, _, hlink, h⟩ := h
  cases h
  cases hcount
  apply linkToParent_counted _ hlink
  apply CountedBut.refreshCount
  apply CountedBut.appendObservations _ hrows
  apply CountedBut.cons
  split
  · exact hs
  · exact hs.modifyEntity (fun _ => rfl) fun _ => rfl

theorem insertUnder_counted {node : TreeNode} {parent : Option Id} {effect : NodeEffect}
    (hs : s.Counted) (h : s.insertUnder now node parent = .ok (effect, after)) :
    after.Counted := by
  simp only [insertUnder, insertNode, bind_eq_ok, Prod.exists] at h
  obtain ⟨_, _, _, ⟨row, first, hrow, rows, second, hrows, hcount⟩, _, _, hlink, h⟩ := h
  cases h
  cases hcount
  apply linkToParent_counted _ hlink
  apply CountedBut.refreshCount
  exact (hs.appendEntity hrow).appendObservations hrows

theorem admitNode_counted {node : TreeNode} {decision : Decision} {treeParent : Option Id}
    {effect : NodeEffect} (hs : s.Counted)
    (h : s.admitNode now node decision treeParent = .ok (effect, after)) : after.Counted := by
  cases decision with
  | skip target parent =>
    cases target with
    | none =>
      cases h
      exact hs
    | some id =>
      simp only [admitNode, bind_eq_ok] at h
      obtain ⟨_, _, h⟩ := h
      cases h
      exact hs
  | create parent =>
    simp only [admitNode] at h
    split at h
    · exact absorbUnder_counted hs h
    · exact insertUnder_counted hs h
  | merge id parent =>
    simp only [admitNode, bind_eq_ok] at h
    obtain ⟨target, _, h⟩ := h
    exact absorbUnder_counted hs h
  | addRelation id parent =>
    simp only [admitNode, bind_eq_ok] at h
    obtain ⟨target, _, h⟩ := h
    exact absorbUnder_counted hs h

theorem runImport_counted {document : TreeDocument} {decisions : Decisions} {mode : ImportMode}
    (hs : s.Counted) : (s.runImport now document decisions mode).2.Counted := by
  have hvisit : ∀ node path treeParent (run : ImportRun), run.store.Counted →
      (run.visit now decisions node path treeParent).1.store.Counted := by
    intro node path treeParent run hrun
    unfold ImportRun.visit
    split
    · rename_i hadmit
      exact admitNode_counted hrun hadmit
    · exact hrun
  have hrun := ImportRun.descendRoots_keeps (P := fun run => run.store.Counted) hvisit 0
    { store := s } hs document.roots
  unfold runImport
  dsimp only
  split
  · exact hs
  · exact hrun

/-! ## Moving, merging and deleting -/

theorem reparent_counted {node parent : Id} {r : Relation} (hs : s.Counted)
    (h : s.reparent now node parent = .ok (r, after)) : after.Counted := by
  simp only [reparent, guard_eq_ok, bind_eq_ok, Prod.exists] at h
  obtain ⟨_, _, _, _, _, _, added, last, hlink, h⟩ := h
  have hfree := releaseFromParents_keeps (fun _ _ hs => hs.of_rows rfl rfl) node hs
  have hlast := appendRelation_counted hfree hlink
  cases added with
  | none => cases h
  | some row =>
    cases h
    exact hlast

/-- Handing relations over touches no entity and no observation. -/
theorem repointAll_rows {source target : Id} {relations : List Relation}
    {count count' : Repointed} (h : repointAll source target relations count s = .ok (count', after)) :
    after.entities = s.entities ∧ after.observations = s.observations ∧
      after.nextEntity = s.nextEntity := by
  induction relations generalizing count s with
  | nil =>
    cases h
    exact ⟨rfl, rfl, rfl⟩
  | cons relation rest ih =>
    simp only [repointAll, bind_eq_ok, Prod.exists] at h
    obtain ⟨_, mid, hone, hrest⟩ := h
    obtain ⟨hentities, hobservations, hnext⟩ := ih hrest
    have hmid : mid.entities = s.entities ∧ mid.observations = s.observations ∧
        mid.nextEntity = s.nextEntity := by
      obtain ⟨_, _, rfl⟩ | ⟨_, _, _, hok⟩ | ⟨_, _, _, _, _, rfl⟩ | ⟨_, _, _, _, _, hok⟩ :=
        repointOne_cases hone
      · exact ⟨rfl, rfl, rfl⟩
      · obtain ⟨_, _, _, rfl⟩ := redirectRelation_eq_ok hok
        exact ⟨rfl, rfl, rfl⟩
      · exact ⟨rfl, rfl, rfl⟩
      · obtain ⟨_, _, _, rfl⟩ := redirectRelation_eq_ok hok
        exact ⟨rfl, rfl, rfl⟩
    exact ⟨hentities.trans hmid.1, hobservations.trans hmid.2.1, hnext.trans hmid.2.2⟩

theorem mergeEntities_counted {source target : Id} {effect : MergeEffect} (hs : s.Counted)
    (h : s.mergeEntities now source target = .ok (effect, after)) : after.Counted := by
  simp only [mergeEntities, guard_eq_ok, bind_eq_ok, Prod.exists] at h
  obtain ⟨_, giver, _, taker, _, count, mid, hrepoint, last, hdelete, _, _, h⟩ := h
  cases h
  obtain ⟨hentities, hobservations, _⟩ := repointAll_rows hrepoint
  obtain ⟨_, rfl⟩ := deleteEntity_eq_ok.1 hdelete
  -- The handover makes both counts stale: one is taken again, the other goes with its entity.
  apply CountedBut.removeEntity
  apply CountedBut.refreshCount
  apply CountedBut.of_rows _ hentities hobservations
  apply CountedBut.handOver
  exact hs.modifyEntity (fun _ => rfl) fun _ => rfl

theorem prune_counted {node : Id} {cascade : Bool} {count : Nat} (hs : s.Counted)
    (h : s.prune node cascade = .ok (count, after)) : after.Counted := by
  simp only [prune, bind_eq_ok] at h
  obtain ⟨_, _, last, hdelete, h⟩ := h
  cases h
  apply deleteAll_keeps (fun _ id hs => (hs.cons id).removeEntity) hdelete
  split
  · exact hs
  · exact hs.of_rows rfl rfl

end Operations
end Store

/-! ## All operations -/

theorem Operation.perform_counted {now : Timestamp} {s after : Store} {operation : Operation}
    (hk : s.Keyed) (hs : s.Counted) (h : operation.perform now s = .ok after) : after.Counted := by
  cases operation with
  | addEntity input =>
    simp only [perform, bind_eq_ok, Prod.exists] at h
    obtain ⟨_, _, hadd, ⟨⟩⟩ := h
    exact Store.addEntity_counted hs hadd
  | changeEntity id update =>
    simp only [perform, bind_eq_ok, Prod.exists] at h
    obtain ⟨_, _, hchange, ⟨⟩⟩ := h
    exact Store.changeEntity_counted hs hchange
  | observe id contents =>
    simp only [perform, bind_eq_ok, Prod.exists] at h
    obtain ⟨_, _, hobserve, ⟨⟩⟩ := h
    exact Store.observe_counted hs hobserve
  | dropObservation id => exact Store.dropObservation_counted hk hs h
  | relate source target relationType =>
    simp only [perform, Store.relate, bind_eq_ok, Prod.exists] at h
    obtain ⟨_, _, ⟨_, _, _, _, hrelate⟩, ⟨⟩⟩ := h
    exact Store.appendRelation_counted hs hrelate
  | dropRelation id =>
    simp only [perform, Store.dropRelation, bind_eq_ok] at h
    obtain ⟨_, _, ⟨⟩⟩ := h
    exact hs.of_rows rfl rfl
  | setEmbedding id v =>
    simp only [perform, Store.setEmbedding, bind_eq_ok] at h
    obtain ⟨_, _, ⟨⟩⟩ := h
    exact hs.modifyEntity (fun _ => rfl) fun _ => rfl
  | runImport document decisions mode =>
    cases h
    exact Store.runImport_counted hs
  | reparent node parent =>
    simp only [perform, bind_eq_ok, Prod.exists] at h
    obtain ⟨_, _, hmove, ⟨⟩⟩ := h
    exact Store.reparent_counted hs hmove
  | mergeEntities source target =>
    simp only [perform, bind_eq_ok, Prod.exists] at h
    obtain ⟨_, _, hmerge, ⟨⟩⟩ := h
    exact Store.mergeEntities_counted hs hmerge
  | prune node cascade =>
    simp only [perform, bind_eq_ok, Prod.exists] at h
    obtain ⟨_, _, hprune, ⟨⟩⟩ := h
    exact Store.prune_counted hs hprune

theorem Reachable.counted {s : Store} (h : Reachable s) : s.Counted := by
  induction h with
  | empty => exact Store.counted_empty
  | step now operation hs ih =>
    unfold Operation.outcome
    split
    · rename_i hok
      exact Operation.perform_counted hs.keyed ih hok
    · exact ih

/-- Whatever is asked of the graph, the number that every entity carries is that of its
observations. -/
theorem counted_after_run (steps : List (Moment × Operation)) :
    ∀ e ∈ (Store.run .empty steps).entities,
      e.observationCount = ((Store.run .empty steps).observationsOf e.id).length := by
  intro e he
  apply (Reachable.empty.run steps).counted e he
  simp

/-- An entity that has been given the observations of another one, and has lost one of its own. -/
theorem counted_of_handover :
    let now : Moment := .ofNanoseconds 0
    let s := Store.run .empty [
      (now, .addEntity { name := "giver", entityType := "Note", observations := ["one", "two"] }),
      (now, .addEntity { name := "taker", entityType := "Note", observations := ["three"] }),
      (now, .dropObservation 3),
      (now, .mergeEntities 1 2)]
    ∃ e ∈ s.entities, e.id = 2 ∧ e.observationCount = (s.observationsOf e.id).length := by
  intro now s
  have htaker : s.HasEntity 2 := by decide +kernel
  obtain ⟨e, he, hid⟩ := htaker
  exact ⟨e, he, hid, counted_after_run _ e he⟩

end MemoryGraph
