-- SUMMARY: Observations are added once: the first occurrences of what an entity does not say yet, and nothing when they are added again.
import MemoryGraph.Proofs.Admission

/-!
# Adding observations

A list of contents is gone through from the left. What the entity says already is
passed over, and so is what stood in the list before; all else is checked and
gets a row. The set of what is known grows on the way, so that a content which is
repeated is checked at its first occurrence only. A content that may not be
stored is refused all the same: no entity says it.
-/
namespace MemoryGraph

open Text

/-- A content that no observation may have: nothing but blanks, a text that is too long, or one
with NUL in it. -/
def Observation.Unfit (content : String) : Prop :=
  (∀ c ∈ content.toList, isBlank c = true) ∨ 4096 < content.length ∨ '\u0000' ∈ content.toList

theorem Observation.not_unfit_iff {content : String} :
    ¬ Unfit content ↔ Field.observation.fault? content = none := by
  have hblank : allBlank content = false ↔ ¬ ∀ c ∈ content.toList, isBlank c = true := by
    simp [allBlank]
  have hclean : (∀ c ∈ content.toList, Field.observation.forbids c = false) ↔
      '\u0000' ∉ content.toList := by
    simpa [Field.forbids] using List.forall_mem_ne'
  rw [Field.fault?_eq_none, hblank, hclean, Unfit, not_or, not_or, Nat.not_lt]
  rfl

namespace Store

variable {s mid after : Store} {now later : Timestamp} {id next : Id} {contents again : List String}
  {added : List Observation} {drafts : List ObservationDraft}

/-! ## New rows -/

/-- New rows take the next ids in their order. -/
theorem noteRows_id {k : Nat} (h : k < (noteRows now id next drafts).length) :
    (noteRows now id next drafts)[k].id = next + k := by
  induction drafts generalizing next k with
  | nil => cases h
  | cons draft rest ih =>
    cases k with
    | zero => exact (Int.add_zero next).symm
    | succ k =>
      have hrest := ih (Nat.lt_of_succ_lt_succ h)
      rw [Int.natCast_succ, ← Int.add_comm 1, ← Int.add_assoc]
      exact hrest

theorem next_le_of_mem_noteRows {row : Observation} (h : row ∈ noteRows now id next drafts) :
    next ≤ row.id := by
  obtain ⟨k, hk, rfl⟩ := List.getElem_of_mem h
  rw [noteRows_id hk]
  exact Int.le_add_of_nonneg_right (Int.natCast_nonneg k)

/-- Passing over what is known on the way leaves the first occurrences of what was not known. -/
theorem map_content_unseen (known contents : List String) :
    (unseen known (contents.map fun content => { content })).map ObservationDraft.content =
      (distinct contents).filter fun content => !known.contains content := by
  induction contents generalizing known with
  | nil => rfl
  | cons content rest ih =>
    have hfirst : distinct (content :: rest) =
        content :: (distinct rest).filter fun other => !(other == content) := rfl
    rw [List.map_cons, unseen, hfirst, List.filter_cons, List.filter_filter]
    cases hknown : known.contains content with
    | true =>
      -- What is known already need not be told apart from the first content a second time.
      simp only [if_true, Bool.not_true, Bool.false_eq_true, if_false, ih]
      refine List.filter_congr fun other _ => ?_
      cases hother : known.contains other with
      | true => rfl
      | false =>
        have hne : other ≠ content := by
          rintro rfl
          cases hknown.symm.trans hother
        simp [hne]
    | false =>
      simp only [Bool.false_eq_true, if_false, Bool.not_false, if_true, List.map_cons, ih]
      refine congrArg (content :: ·) (List.filter_congr fun other _ => ?_)
      rw [List.contains_cons, Bool.not_or, Bool.and_comm]

theorem unseen_sublist (known : List String) (drafts : List ObservationDraft) :
    (unseen known drafts).Sublist drafts := by
  induction drafts generalizing known with
  | nil => exact .slnil
  | cons draft rest ih =>
    rw [unseen]
    split
    · exact (ih known).cons draft
    · exact (ih _).cons_cons draft

/-! ## What is left -/

/-- Contents have been added to an entity. -/
structure Observed (s : Store) (now : Timestamp) (id : Id) (contents : List String)
    (added : List Observation) (after : Store) : Prop where
  /-- What is new to the entity has a row each, at its first occurrence. -/
  said : added.map Observation.content =
    (distinct contents).filter fun content => !(s.contentsOf id).contains content
  owner : ∀ row ∈ added, row.entityId = id ∧ row.createdAt = now
  /-- The rows take the next ids in the order of the list. -/
  ids : ∀ k (h : k < added.length), added[k].id = s.nextObservation + k
  observations : after.observations = s.observations ++ added
  /-- Read back under the ids of the new rows, the observations of the entity are these rows. -/
  readBack : (after.observationsOf id).filter (fun o => (added.map Observation.id).contains o.id) =
    added
  /-- Of the entities only this one changes, and of it only the count and the moment. -/
  entities : after.entities = s.entities.map fun e =>
    if e.id = id then
      { e with observationCount := (after.observationsOf id).length, updatedAt := now }
    else e
  relations : after.relations = s.relations
  nextEntity : after.nextEntity = s.nextEntity
  nextObservation : after.nextObservation = s.nextObservation + added.length
  nextRelation : after.nextRelation = s.nextRelation

/-- Rows of an entity that are added come behind the observations that it had. -/
theorem observationsOf_append (hobservations : after.observations = s.observations ++ added)
    (howner : ∀ row ∈ added, row.entityId = id) :
    after.observationsOf id = s.observationsOf id ++ added := by
  have hall : added.filter (fun o => o.entityId = id) = added :=
    List.filter_eq_self.2 fun row hrow => by simp [howner row hrow]
  rw [observationsOf, hobservations, List.filter_append, hall, observationsOf]

/-- The rows that were there have lower ids than the new ones, so that the ids of these tell them
apart. -/
theorem readBack_eq (hs : s.Keyed) (hobservations : after.observations = s.observations ++ added)
    (howner : ∀ row ∈ added, row.entityId = id) (hnew : ∀ row ∈ added, s.nextObservation ≤ row.id) :
    (after.observationsOf id).filter (fun o => (added.map Observation.id).contains o.id) =
      added := by
  have hold : (s.observationsOf id).filter (fun o => (added.map Observation.id).contains o.id) =
      [] := by
    rw [List.filter_eq_nil_iff]
    intro o ho hsame
    obtain ⟨row, hrow, hid⟩ := List.mem_map.1 (List.contains_iff_mem.1 hsame)
    have hlt := hs.observations.lt_bound o (List.mem_filter.1 ho).1
    exact Int.not_le.2 hlt (hid ▸ hnew row hrow)
  have hback : added.filter (fun o => (added.map Observation.id).contains o.id) = added :=
    List.filter_eq_self.2 fun row hrow => List.contains_iff_mem.2 (List.mem_map_of_mem hrow)
  rw [observationsOf_append hobservations howner, List.filter_append, hold, hback, List.nil_append]

theorem observed_of_ok (hs : s.Keyed) (h : s.observe now id contents = .ok (added, after)) :
    s.Observed now id contents added after := by
  simp only [observe, bind_eq_ok, Prod.exists] at h
  obtain ⟨_, _, rows, mid, hrows, h⟩ := h
  cases h
  rw [appendObservations_eq, bind_eq_ok] at hrows
  obtain ⟨_, _, hrows⟩ := hrows
  cases hrows
  have hnoted := noteRows_noted now id s.nextObservation
    (unseen (s.contentsOf id) (contents.map fun content => { content }))
  constructor
  case said => exact hnoted.contents.trans (map_content_unseen (s.contentsOf id) contents)
  case owner =>
    intro row hrow
    obtain ⟨draft, hdraft, htold⟩ := hnoted.exists_draft hrow
    obtain ⟨content, _, rfl⟩ := List.mem_map.1 ((unseen_sublist _ _).subset hdraft)
    exact ⟨hnoted.owner row hrow, (congrArg Prod.snd htold).symm⟩
  case ids => exact fun k hk => noteRows_id hk
  case readBack => exact readBack_eq hs rfl hnoted.owner fun _ => next_le_of_mem_noteRows
  all_goals rfl

/-! ## When contents are refused -/

/-- Contents are added when none that is new to the entity has a fault. -/
theorem exists_observe_iff (hid : s.HasEntity id) :
    (∃ added after, s.observe now id contents = .ok (added, after)) ↔
      ∀ draft ∈ unseen (s.contentsOf id) (contents.map fun content => { content }),
        Field.observation.fault? draft.content = none := by
  constructor
  · rintro ⟨added, after, h⟩ draft hdraft
    simp only [observe, bind_eq_ok, Prod.exists] at h
    obtain ⟨_, _, rows, mid, hrows, _⟩ := h
    rw [appendObservations_eq, bind_eq_ok] at hrows
    obtain ⟨_, hvalid, _⟩ := hrows
    exact Field.validate_eq_ok.1 (forM_eq_ok.1 hvalid draft hdraft)
  · intro hnew
    obtain ⟨e, he⟩ := hid.existing
    obtain ⟨rows, last, hrows, _⟩ := appendObservations_of_settled now id hnew s
    exact ⟨_, _, bind_eq_ok.2 ⟨e, he, bind_eq_ok.2 ⟨_, hrows, rfl⟩⟩⟩

/-- What an entity says is fit, so that an unfit content is new to it. -/
theorem Settled.not_unfit (hs : s.Settled) {content : String} (h : content ∈ s.contentsOf id) :
    ¬ Observation.Unfit content := by
  obtain ⟨o, ho, rfl⟩ := List.mem_map.1 h
  exact Observation.not_unfit_iff.2 (hs.observations o (List.mem_filter.1 ho).1).content

/-- Contents are refused for one that is unfit, and only for such a one. -/
theorem Settled.observe_eq_error_iff (hs : s.Settled) (hid : s.HasEntity id) :
    (∃ cause, s.observe now id contents = .error cause) ↔
      ∃ content ∈ contents, Observation.Unfit content := by
  have hrefused : (∃ cause, s.observe now id contents = .error cause) ↔
      ¬ ∃ added after, s.observe now id contents = .ok (added, after) := by
    rcases s.observe now id contents with cause | ⟨added, after⟩ <;> simp
  rw [hrefused, exists_observe_iff hid]
  constructor
  · intro hnew
    by_contra hnone
    push Not at hnone
    refine hnew fun draft hdraft => ?_
    obtain ⟨content, hcontent, rfl⟩ := List.mem_map.1 ((unseen_sublist _ _).subset hdraft)
    exact Observation.not_unfit_iff.1 (hnone content hcontent)
  · rintro ⟨content, hcontent, hunfit⟩ hnew
    have hnewly : content ∈ (unseen (s.contentsOf id) (contents.map fun content => { content })).map
        ObservationDraft.content := by
      rw [map_content_unseen, List.mem_filter, mem_distinct]
      exact ⟨hcontent, by simpa using fun hknown => hs.not_unfit hknown hunfit⟩
    obtain ⟨draft, hdraft, rfl⟩ := List.mem_map.1 hnewly
    exact Observation.not_unfit_iff.2 (hnew draft hdraft) hunfit

/-! ## Adding them again -/

theorem Observed.contentsOf (h : s.Observed now id contents added after) :
    after.contentsOf id = s.contentsOf id ++ added.map Observation.content := by
  have howner := fun row hrow => (h.owner row hrow).1
  rw [Store.contentsOf, observationsOf_append h.observations howner, List.map_append,
    Store.contentsOf]

/-- Once contents have been added, the entity says each of them. -/
theorem Observed.knows (h : s.Observed now id contents added after) {content : String}
    (hcontent : content ∈ contents) : content ∈ after.contentsOf id := by
  rw [h.contentsOf, h.said, List.mem_append, List.mem_filter, mem_distinct]
  by_cases hknown : content ∈ s.contentsOf id
  · exact .inl hknown
  · exact .inr ⟨hcontent, by simpa using hknown⟩

theorem Observed.hasEntity (h : s.Observed now id contents added after) (hid : s.HasEntity id) :
    after.HasEntity id := by
  obtain ⟨e, he, rfl⟩ := hid
  rw [HasEntity, h.entities]
  exact ⟨_, List.mem_map_of_mem he, by simp⟩

/-- Contents that the entity says already are passed over; only its row is written. -/
theorem observe_of_known (hid : s.HasEntity id)
    (hknown : ∀ content ∈ again, content ∈ s.contentsOf id) :
    s.observe later id again = .ok ([], s.refreshCount later id) := by
  obtain ⟨e, he⟩ := hid.existing
  have hnone : unseen (s.contentsOf id) (again.map fun content => { content }) = [] := by
    rw [unseen_eq_nil]
    simpa using hknown
  simp only [observe, he, hnone]
  rfl

end Store

/-- Adding contents to an entity is refused when one of them is unfit, and for nothing else.
Otherwise exactly the first occurrences of those that the entity does not say yet are added, and
adding the same contents again, in any order and any number, adds nothing. -/
theorem observed_once {s : Store} (h : Reachable s) {id : Id} (hid : s.HasEntity id) (now : Moment)
    (contents : List String) :
    ((∃ cause, s.observe now.text id contents = .error cause) ↔
      ∃ content ∈ contents, Observation.Unfit content) ∧
    ∀ added after, s.observe now.text id contents = .ok (added, after) →
      s.Observed now.text id contents added after ∧
      ∀ (later : Timestamp) (again : List String), again ⊆ contents →
        ∃ last, after.observe later id again = .ok ([], last) ∧
          after.Observed later id again [] last := by
  refine ⟨h.sound.settled.observe_eq_error_iff hid, ?_⟩
  intro added after hok
  have hfirst := Store.observed_of_ok h.keyed hok
  refine ⟨hfirst, ?_⟩
  intro later again hsub
  have hafter : Reachable after := by
    have hstep := h.step now (.observe id contents)
    rw [Operation.outcome, Operation.perform, hok] at hstep
    exact hstep
  have hagain : after.observe later id again = .ok ([], after.refreshCount later id) :=
    Store.observe_of_known (hfirst.hasEntity hid) fun content hcontent =>
      hfirst.knows (hsub hcontent)
  exact ⟨_, hagain, Store.observed_of_ok hafter.keyed hagain⟩

/-- A list in which one content is known, one is repeated and one is new; a blank content that the
list ends in refuses all of it. -/
theorem observed_once_of_repeats :
    let now : Moment := .ofNanoseconds 0
    let s := Store.run .empty [
      (now, .addEntity { name := "rust", entityType := "Language", observations := ["known"] }),
      (now, .addEntity { name := "lean", entityType := "Language", observations := ["late"] })]
    let contents := ["new", "known", "new", "late"]
    Reachable s ∧ s.HasEntity 1 ∧
      (∃ added after, s.observe now.text 1 contents = .ok (added, after) ∧
        added.map Observation.content = ["new", "late"] ∧
        ∃ last, after.observe now.text 1 ["late", "known", "new", "new"] = .ok ([], last)) ∧
      ∃ cause, s.observe now.text 1 (contents ++ [" "]) = .error cause := by
  intro now s contents
  have hreachable : Reachable s := Reachable.empty.run _
  have hid : s.HasEntity 1 := by decide +kernel
  have hfits : ¬ ∃ content ∈ contents, Observation.Unfit content := by
    simp only [contents, List.mem_cons, List.not_mem_nil, or_false, not_exists, not_and,
      forall_eq_or_imp, forall_eq, Observation.not_unfit_iff]
    decide +kernel
  have hsaid : (distinct contents).filter (fun content => !(s.contentsOf 1).contains content) =
      ["new", "late"] := by decide +kernel
  obtain ⟨hrefused, hadded⟩ := observed_once hreachable hid now contents
  refine ⟨hreachable, hid, ?_, ?_⟩
  · cases hok : s.observe now.text 1 contents with
    | error cause => exact absurd (hrefused.1 ⟨cause, hok⟩) hfits
    | ok result =>
      obtain ⟨added, after⟩ := result
      obtain ⟨hfirst, hagain⟩ := hadded added after hok
      obtain ⟨last, hlast, _⟩ := hagain now.text ["late", "known", "new", "new"] (by decide)
      exact ⟨added, after, rfl, hfirst.said.trans hsaid, last, hlast⟩
  · have hblank : allBlank " " = true := by decide
    exact (observed_once hreachable hid now (contents ++ [" "])).1.2
      ⟨" ", List.mem_append_right _ List.mem_cons_self, .inl (List.all_eq_true.1 hblank)⟩

end MemoryGraph
