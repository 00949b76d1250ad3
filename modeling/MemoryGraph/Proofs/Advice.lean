-- SUMMARY: The projects suggested for an orphan are the best there are, and moving the orphan under one takes it alone off the list.
import MemoryGraph.Proofs.Reparent
import MemoryGraph.Suggestion

/-!
# Following a suggestion

An orphan has no parent and is no project; what is suggested for it are projects,
so that it can always be moved under one. A move adds one relation, to a project.
The other orphans are none, so that none of them is under the project or above
it: their suggestions, which are taken from the names, and the number of their
children are as they were.
-/
namespace MemoryGraph

open Store Text

theorem suggestion?_eq_some {node project : Entity} {m : ParentSuggestion}
    (h : suggestion? node project = some m) : m.projectId = project.id ∧ 0 < m.score := by
  simp only [suggestion?] at h
  split at h
  · rename_i hpositive
    cases h
    exact ⟨rfl, hpositive⟩
  · cases h

namespace Store

/-- A suggestion names another project that overlaps with the orphan, and no project that is left
out overlaps with it better. -/
structure Recommends (s : Store) (advice : OrphanAdvice) (m : ParentSuggestion) : Prop where
  project : ∃ p ∈ s.entities, p.id = m.projectId ∧ p.isTop = true ∧ p.id ≠ advice.entity.id ∧
    suggestion? advice.entity p = some m
  positive : 0 < m.score
  best : ∀ p ∈ s.entities, p.isTop = true →
    p.id ∉ advice.suggestions.map ParentSuggestion.projectId →
    ∀ other, suggestion? advice.entity p = some other → other.score ≤ m.score

/-- An orphan has got a place: it is off the list of orphans, and all else that is told of them is as
it was. -/
structure Adopted (s : Store) (node : Id) (after : Store) : Prop where
  orphans : after.orphans = s.orphans.filter fun e => e.id ≠ node
  advice : after.orphanAdvice = s.orphanAdvice.filter fun advice => advice.entity.id ≠ node

variable {s : Store} {now : Timestamp} {node parent id : Id} {e p : Entity} {m : ParentSuggestion}
  {advice : OrphanAdvice}

/-! ## Suggestions -/

theorem mem_orphans : e ∈ s.orphans ↔ e ∈ s.entities ∧ s.isRoot e.id = true ∧ e.isTop = false := by
  rw [orphans, List.mem_filter, parentless, byName, List.mem_mergeSort, List.mem_filter, and_assoc,
    Bool.not_eq_true']

theorem mem_suggestionsFor : m ∈ s.suggestionsFor e ↔
    ∃ p ∈ s.entities, p.isTop = true ∧ p.id ≠ e.id ∧ suggestion? e p = some m := by
  simp [suggestionsFor, ofType, byName, Entity.isTop, and_assoc]

/-- The better suggestions come first. -/
theorem pairwise_suggestionsFor (s : Store) (e : Entity) :
    (s.suggestionsFor e).Pairwise fun a b => b.score ≤ a.score := by
  have hsorted : (s.suggestionsFor e).Pairwise
      fun a b : ParentSuggestion => decide (b.score ≤ a.score) = true := by
    apply List.pairwise_mergeSort
    · intro a b c hab hbc
      rw [decide_eq_true_eq] at hab hbc ⊢
      exact hbc.trans hab
    · intro a b
      rw [Bool.or_eq_true, decide_eq_true_eq, decide_eq_true_eq]
      exact Nat.le_total b.score a.score
  exact hsorted.imp of_decide_eq_true

/-- What is cut off scores no more than what is shown. -/
theorem score_le_of_cut {other : ParentSuggestion} {n : Nat} (hm : m ∈ (s.suggestionsFor e).take n)
    (hother : other ∈ s.suggestionsFor e) (hcut : other ∉ (s.suggestionsFor e).take n) :
    other.score ≤ m.score := by
  have hsorted := pairwise_suggestionsFor s e
  rw [← List.take_append_drop n (s.suggestionsFor e)] at hother hsorted
  have hbehind := (List.mem_append.1 hother).resolve_left hcut
  exact (List.pairwise_append.1 hsorted).2.2 m hm other hbehind

/-- A project that overlaps better than all others is shown. -/
theorem mem_take_of_best {n : Nat} (hn : 0 < n) (hm : m ∈ s.suggestionsFor e)
    (hbest : ∀ other ∈ s.suggestionsFor e, other.score < m.score ∨ other = m) :
    m ∈ (s.suggestionsFor e).take n := by
  by_contra hcut
  have hsome : (s.suggestionsFor e).take n ≠ [] := by
    rw [Ne, List.take_eq_nil_iff, not_or]
    exact ⟨Nat.ne_of_gt hn, List.ne_nil_of_mem hm⟩
  obtain ⟨shown, hshown⟩ := List.exists_mem_of_ne_nil _ hsome
  obtain hless | rfl := hbest shown (List.mem_of_mem_take hshown)
  · exact Nat.not_lt.2 (score_le_of_cut hshown hm hcut) hless
  · exact hcut hshown

/-- Each orphan is told with the best of its suggestions. -/
theorem exists_advice (he : e ∈ s.orphans) (hm : m ∈ (s.suggestionsFor e).take suggestionsShown) :
    ∃ advice ∈ s.orphanAdvice, advice.entity = e ∧ m ∈ advice.suggestions :=
  ⟨_, List.mem_map_of_mem he, rfl, hm⟩

theorem recommends_of_shown (hk : s.Keyed) (h : advice ∈ s.orphanAdvice) (hm : m ∈ advice.suggestions) :
    s.Recommends advice m := by
  obtain ⟨orphan, horphan, rfl⟩ := List.mem_map.1 h
  obtain ⟨hmem, _, hbelow⟩ := mem_orphans.1 horphan
  obtain ⟨p, hp, htop, hother, hsuggested⟩ := mem_suggestionsFor.1 (List.mem_of_mem_take hm)
  obtain ⟨hid, hpositive⟩ := suggestion?_eq_some hsuggested
  have hproject : p.id = m.projectId := hid.symm
  constructor
  case project => exact ⟨p, hp, hproject, htop, hother, hsuggested⟩
  case positive => exact hpositive
  case best =>
    intro q hq hqtop hleft other hqsuggested
    have hapart : q.id ≠ orphan.id := by
      intro hsame
      rw [hk.entities.unique hq hmem hsame, hbelow] at hqtop
      cases hqtop
    have hranked := mem_suggestionsFor.2 ⟨q, hq, hqtop, hapart, hqsuggested⟩
    refine score_le_of_cut hm hranked fun hshown => hleft ?_
    rw [← (suggestion?_eq_some hqsuggested).1]
    exact List.mem_map_of_mem hshown

/-! ## After the move -/

theorem orphans_underParent (hk : s.Keyed) :
    (s.underParent now node parent).orphans = s.orphans.filter fun e => e.id ≠ node := by
  simp only [orphans, parentless_underParent hk, List.filter_filter, Bool.and_comm]

/-- A root has no relation to lose. -/
theorem relationsBeside_of_isRoot (h : s.isRoot node = true) :
    s.relationsBeside node = s.relations := by
  rw [isRoot, List.isEmpty_iff, relationsToParents, List.filter_eq_nil_iff] at h
  rw [relationsBeside, List.filter_eq_self]
  exact fun r hr => by simpa [-not_and, not_and_or] using h r hr

theorem relationsFromChildren_underParent (h : s.isRoot node = true) (hne : id ≠ parent) :
    (s.underParent now node parent).relationsFromChildren id = s.relationsFromChildren id := by
  rw [relationsFromChildren, underParent, relationsBeside_of_isRoot h, List.filter_append]
  simp [relationsFromChildren, parentLink, hne.symm]

/-- Under a project, an orphan is off the list, and what is told of the others is as it was. -/
theorem adopted_underParent (hk : s.Keyed) (hroot : s.isRoot node = true) (hp : p ∈ s.entities)
    (htop : p.isTop = true) : s.Adopted node (s.underParent now node p.id) := by
  have horphans : (s.underParent now node p.id).orphans = s.orphans.filter fun e => e.id ≠ node :=
    orphans_underParent hk
  refine ⟨horphans, ?_⟩
  rw [orphanAdvice, orphanAdvice, horphans, List.filter_map]
  refine List.map_congr_left fun e he => ?_
  have hne : e.id ≠ p.id := by
    intro hsame
    obtain ⟨hmem, _, hbelow⟩ := mem_orphans.1 (List.mem_filter.1 he).1
    rw [hk.entities.unique hmem hp hsame, htop] at hbelow
    cases hbelow
  rw [relationsFromChildren_underParent hroot hne]
  rfl

end Store

/-- What is suggested for an orphan is an existing project that scores, and as well as any that is
left out. The orphan can be moved under it, which takes it off the list of orphans and changes
nothing of what is told of the others. -/
theorem advice_can_be_followed {s : Store} (h : Reachable s) (now : Timestamp)
    {advice : OrphanAdvice} (hadvice : advice ∈ s.orphanAdvice) {m : ParentSuggestion}
    (hm : m ∈ advice.suggestions) :
    s.Recommends advice m ∧
      ∃ r after, s.reparent now advice.entity.id m.projectId = .ok (r, after) ∧
        s.Adopted advice.entity.id after := by
  have hk : s.Keyed := h.keyed
  have hgood := recommends_of_shown hk hadvice hm
  refine ⟨hgood, ?_⟩
  obtain ⟨orphan, horphan, rfl⟩ := List.mem_map.1 hadvice
  obtain ⟨hmem, hroot, _⟩ := mem_orphans.1 horphan
  obtain ⟨p, hp, hid, htop, hapart, _⟩ := hgood.project
  have hfree : (orphan.id, m.projectId, usualUpwardType) ∉ s.relations.map Relation.triple := by
    have husual : isUpwardType usualUpwardType = true := by decide
    exact fun hlinked => isRoot_iff.1 hroot m.projectId ⟨_, husual, hlinked⟩
  have hcan : s.CanMove orphan.id m.projectId :=
    { apart := fun hsame => hapart (hid.trans hsame.symm)
      child := ⟨orphan, hmem, rfl⟩
      top := ⟨p, hp, hid⟩
      free := hfree }
  have hadopted : s.Adopted orphan.id (s.underParent now orphan.id p.id) :=
    adopted_underParent hk hroot hp htop
  rw [hid] at hadopted
  exact ⟨_, _, hcan.reparent_eq_ok hk now, hadopted⟩

/-- Four projects overlap with the name of an orphan, one more than are shown; it is moved under the
one that overlaps best. Another orphan keeps its child. -/
theorem advice_followed_among_four :
    let now : Moment := .ofNanoseconds 0
    let s := Store.run .empty [
      (now, .addEntity { name := "memory graph", entityType := "Project" }),
      (now, .addEntity { name := "graphics", entityType := "Project" }),
      (now, .addEntity { name := "graph", entityType := "Project" }),
      (now, .addEntity { name := "store", entityType := "Project", aliases := some "graph" }),
      (now, .addEntity { name := "graph-store", entityType := "Module" }),
      (now, .addEntity { name := "memory", entityType := "Module" }),
      (now, .addEntity { name := "leaf", entityType := "Note" }),
      (now, .relate 7 6 "part_of")]
    Reachable s ∧ ∃ advice ∈ s.orphanAdvice, ∃ m ∈ advice.suggestions,
      advice.entity.id = 5 ∧ m.projectId = 4 ∧ s.Recommends advice m ∧
      ∃ r after, s.reparent now.text advice.entity.id m.projectId = .ok (r, after) ∧
        s.Adopted advice.entity.id after := by
  intro now s
  let orphan : Entity :=
    { id := 5, name := "graph-store", entityType := "Module", createdAt := now.text
      updatedAt := now.text }
  let m : ParentSuggestion :=
    { projectId := 4, projectName := "store", score := 18, tokens := ["graph", "store"] }
  have hreachable : Reachable s := Reachable.empty.run _
  have horphan : orphan ∈ s.orphans := mem_orphans.2 (by decide +kernel)
  have hm : m ∈ s.suggestionsFor orphan := mem_suggestionsFor.2 (by decide +kernel)
  have hscores : ∀ p ∈ s.entities, p.isTop = true → ∀ other ∈ suggestion? orphan p,
      other.score < m.score ∨ other = m := by decide +kernel
  have hshown : m ∈ (s.suggestionsFor orphan).take suggestionsShown := by
    refine mem_take_of_best (by decide) hm fun other hother => ?_
    obtain ⟨p, hp, htop, _, hsuggested⟩ := mem_suggestionsFor.1 hother
    exact hscores p hp htop other hsuggested
  obtain ⟨advice, hadvice, hentity, hsuggested⟩ := exists_advice horphan hshown
  have hid : advice.entity.id = 5 := congrArg Entity.id hentity
  exact ⟨hreachable, advice, hadvice, m, hsuggested, hid, rfl,
    advice_can_be_followed hreachable now.text hadvice hsuggested⟩

end MemoryGraph
