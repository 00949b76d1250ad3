-- SUMMARY: Merging, deleting and moving succeed when what they are asked makes sense, and are refused for nothing else.
import MemoryGraph.Proofs.Merge
import MemoryGraph.Proofs.Prune
import MemoryGraph.Proofs.Reparent

/-!
# What reshaping is refused for

Three refusals guard against a table that is not as it should be: an entity that
cannot be deleted, a new relation that is not there, a row that breaks a
constraint. On the stores that runs make none of them is ever given, because
everything that has passed the first checks succeeds.
-/
namespace MemoryGraph

open Store Text

/-- An operation succeeds exactly when it is allowed. It is refused for the given causes and no
others, all of them the caller's, and none a constraint that a write has broken. (A broken
constraint would be told as an invalid input, so that the kind alone does not rule it out.) -/
structure Answers {α : Type} (result : Except Refusal α) (allowed : Prop) (causes : Refusal → Prop) :
    Prop where
  succeeds : (∃ a, result = .ok a) ↔ allowed
  refused : ∀ cause, result = .error cause ↔ causes cause
  kind : ∀ cause, result = .error cause → cause.kind = .notFound ∨ cause.kind = .validationFailed
  unbroken : ∀ broken, result ≠ .error (.violated broken)

/-- Causes that the checks in front of an operation give where it is not allowed, and only there. -/
theorem Answers.of_checks {α : Type} {result : Except Refusal α} {allowed : Prop}
    {causes : Refusal → Prop} (hok : allowed → ∃ a, result = .ok a)
    (herror : ∀ cause, causes cause → result = .error cause)
    (hcause : ¬ allowed → ∃ cause, causes cause)
    (hkind : ∀ cause, causes cause → cause.kind = .notFound ∨ cause.kind = .validationFailed)
    (hunbroken : ∀ broken, ¬ causes (.violated broken)) : Answers result allowed causes := by
  have hrefused : ∀ cause, result = .error cause → causes cause := by
    intro cause hresult
    by_cases hallowed : allowed
    · obtain ⟨a, ha⟩ := hok hallowed
      rw [ha] at hresult
      cases hresult
    · obtain ⟨given, hgiven⟩ := hcause hallowed
      rw [herror given hgiven] at hresult
      cases hresult
      exact hgiven
  constructor
  · refine ⟨fun ⟨a, ha⟩ => ?_, hok⟩
    by_contra hno
    obtain ⟨given, hgiven⟩ := hcause hno
    rw [herror given hgiven] at ha
    cases ha
  · exact fun cause => ⟨hrefused cause, herror cause⟩
  · exact fun cause hresult => hkind cause (hrefused cause hresult)
  · exact fun broken hresult => hunbroken broken (hrefused _ hresult)

namespace Store

/-! ## Why an operation is refused -/

/-- Why a merge is refused. -/
inductive MergeRefused (s : Store) (source target : Id) : Refusal → Prop where
  | itself (h : source = target) : MergeRefused s source target .mergeIntoItself
  | noSource (hne : source ≠ target) (h : ¬ s.HasEntity source) :
      MergeRefused s source target (.notFound (.entity source))
  | noTarget (hne : source ≠ target) (hsource : s.HasEntity source) (h : ¬ s.HasEntity target) :
      MergeRefused s source target (.notFound (.entity target))

/-- Why a deletion is refused. -/
inductive PruneRefused (s : Store) (node : Id) : Refusal → Prop where
  | noNode (h : ¬ s.HasEntity node) : PruneRefused s node (.notFound (.entity node))

/-- Why a move is refused. -/
inductive MoveRefused (s : Store) (node parent : Id) : Refusal → Prop where
  | underItself (h : node = parent) : MoveRefused s node parent .moveUnderItself
  | noNode (hne : node ≠ parent) (h : ¬ s.HasEntity node) :
      MoveRefused s node parent (.notFound (.entity node))
  | noParent (hne : node ≠ parent) (hnode : s.HasEntity node) (h : ¬ s.HasEntity parent) :
      MoveRefused s node parent (.notFound (.entity parent))
  | already (hne : node ≠ parent) (hnode : s.HasEntity node) (hparent : s.HasEntity parent)
      (h : (node, parent, usualUpwardType) ∈ s.relations.map Relation.triple) :
      MoveRefused s node parent (.alreadyUnder node parent)

section Answers

variable {s : Store} {source target node parent : Id}

theorem Sound.mergeEntities_answers (hs : s.Sound) (now : Timestamp) :
    Answers (s.mergeEntities now source target)
      (source ≠ target ∧ s.HasEntity source ∧ s.HasEntity target)
      (s.MergeRefused source target) := by
  apply Answers.of_checks
  case hok =>
    rintro ⟨hne, hsource, htarget⟩
    obtain ⟨effect, after, hok, _⟩ := mergeEntities_eq_ok now hs hne hsource htarget
    exact ⟨_, hok⟩
  case herror =>
    intro cause hcause
    simp only [mergeEntities, guard_eq_error, bind_eq_error, existing_eq_error]
    cases hcause with
    | itself h => exact .inl ⟨h, rfl⟩
    | noSource hne h => exact .inr ⟨hne, .inl ⟨h, rfl⟩⟩
    | noTarget hne hsource h =>
      obtain ⟨giver, hgiver⟩ := hsource.existing
      exact .inr ⟨hne, .inr ⟨giver, hgiver, .inl ⟨h, rfl⟩⟩⟩
  case hcause =>
    intro hno
    by_cases hne : source = target
    · exact ⟨_, .itself hne⟩
    by_cases hsource : s.HasEntity source
    · exact ⟨_, .noTarget hne hsource fun htarget => hno ⟨hne, hsource, htarget⟩⟩
    · exact ⟨_, .noSource hne hsource⟩
  case hkind =>
    intro cause hcause
    cases hcause with
    | itself => exact .inr rfl
    | noSource | noTarget => exact .inl rfl
  case hunbroken =>
    rintro broken ⟨⟩

theorem Linked.prune_answers (h : s.Linked) (cascade : Bool) :
    Answers (s.prune node cascade) (s.HasEntity node) (s.PruneRefused node) := by
  apply Answers.of_checks
  case hok => exact fun hnode => ⟨_, h.prune_eq_ok hnode cascade⟩
  case herror =>
    intro cause hcause
    simp only [prune, bind_eq_error, existing_eq_error]
    cases hcause with
    | noNode hnode => exact .inl ⟨hnode, rfl⟩
  case hcause => exact fun hnode => ⟨_, .noNode hnode⟩
  case hkind =>
    rintro _ ⟨_⟩
    exact .inl rfl
  case hunbroken =>
    rintro broken ⟨⟩

theorem Keyed.reparent_answers (hk : s.Keyed) (now : Timestamp) :
    Answers (s.reparent now node parent) (s.CanMove node parent) (s.MoveRefused node parent) := by
  apply Answers.of_checks
  case hok => exact fun hcan => ⟨_, hcan.reparent_eq_ok hk now⟩
  case herror =>
    intro cause hcause
    simp only [reparent, guard_eq_error, bind_eq_error, existing_eq_error]
    cases hcause with
    | underItself h => exact .inl ⟨h, rfl⟩
    | noNode hne h => exact .inr ⟨hne, .inl ⟨h, rfl⟩⟩
    | noParent hne hnode h =>
      obtain ⟨child, hchild⟩ := hnode.existing
      exact .inr ⟨hne, .inr ⟨child, hchild, .inl ⟨h, rfl⟩⟩⟩
    | already hne hnode hparent h =>
      obtain ⟨child, hchild⟩ := hnode.existing
      obtain ⟨top, htop⟩ := hparent.existing
      have hlinked := isSome_relationBetween?_iff.2 h
      exact .inr ⟨hne, .inr ⟨child, hchild, .inr ⟨top, htop, .inl ⟨hlinked, rfl⟩⟩⟩⟩
  case hcause =>
    intro hno
    by_cases hne : node = parent
    · exact ⟨_, .underItself hne⟩
    by_cases hnode : s.HasEntity node
    · by_cases hparent : s.HasEntity parent
      · refine ⟨_, .already hne hnode hparent ?_⟩
        by_contra hfree
        exact hno ⟨hne, hnode, hparent, hfree⟩
      · exact ⟨_, .noParent hne hnode hparent⟩
    · exact ⟨_, .noNode hne hnode⟩
  case hkind =>
    intro cause hcause
    cases hcause with
    | underItself | already => exact .inr rfl
    | noNode | noParent => exact .inl rfl
  case hunbroken =>
    rintro broken ⟨⟩

end Answers
end Store

/-- On every graph that a run makes, merging, deleting and moving succeed whenever their first
checks let them, and are refused for the causes of those checks only. -/
theorem reshaping_answers {s : Store} (h : Reachable s) (now : Timestamp) :
    (∀ source target, Answers (s.mergeEntities now source target)
      (source ≠ target ∧ s.HasEntity source ∧ s.HasEntity target)
      (s.MergeRefused source target)) ∧
    (∀ node cascade, Answers (s.prune node cascade) (s.HasEntity node) (s.PruneRefused node)) ∧
    (∀ node parent, Answers (s.reparent now node parent) (s.CanMove node parent)
      (s.MoveRefused node parent)) := by
  have hs : s.Sound := h.sound
  refine ⟨fun source target => ?_, fun node cascade => ?_, fun node parent => ?_⟩
  · exact hs.mergeEntities_answers now
  · exact hs.linked.prune_answers cascade
  · exact hs.keyed.reparent_answers now

/-- Two entities that are linked to a third alike, and to each other: each becomes a loop or collides
when they are merged, and the one is under the third already. -/
theorem reshaping_answers_of_collisions :
    let now : Moment := .ofNanoseconds 0
    let s := Store.run .empty [
      (now, .addEntity { name := "first", entityType := "Note" }),
      (now, .addEntity { name := "second", entityType := "Note" }),
      (now, .addEntity { name := "third", entityType := "Project" }),
      (now, .relate 2 3 "part_of"),
      (now, .relate 1 3 "part_of"),
      (now, .relate 1 2 "depends_on"),
      (now, .relate 2 1 "depends_on")]
    Reachable s ∧
      (∃ result, s.mergeEntities now.text 1 2 = .ok result) ∧
      s.mergeEntities now.text 1 9 = .error (.notFound (.entity 9)) ∧
      (∃ result, s.prune 2 true = .ok result) ∧
      s.reparent now.text 1 3 = .error (.alreadyUnder 1 3) := by
  intro now s
  have hreachable : Reachable s := Reachable.empty.run _
  have hfirst : s.HasEntity 1 := by decide +kernel
  have hsecond : s.HasEntity 2 := by decide +kernel
  have hthird : s.HasEntity 3 := by decide +kernel
  have hnone : ¬ s.HasEntity 9 := by decide +kernel
  have hlinked : (1, 3, usualUpwardType) ∈ s.relations.map Relation.triple := by decide +kernel
  obtain ⟨hmerge, hprune, hmove⟩ := reshaping_answers hreachable now.text
  refine ⟨hreachable, ?_, ?_, ?_, ?_⟩
  · exact (hmerge 1 2).succeeds.2 ⟨by decide, hfirst, hsecond⟩
  · exact ((hmerge 1 9).refused _).2 (.noTarget (by decide) hfirst hnone)
  · exact (hprune 2 true).succeeds.2 hsecond
  · exact ((hmove 1 3).refused _).2 (.already (by decide) hfirst hthird hlinked)

end MemoryGraph
