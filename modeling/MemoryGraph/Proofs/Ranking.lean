-- SUMMARY: A search for words shows the found entities in a strict order, and the first of them are those with few ahead.
import MemoryGraph.Proofs.Keyed
import MemoryGraph.Search.Words
import Mathlib.Algebra.Order.BigOperators.Group.List
import Mathlib.Algebra.Order.Ring.Nat
import Mathlib.Data.String.Basic

/-!
# The ranking of a search for words

An entity is found when one of the words gives it a point. The found entities stand
in the order of their types, those of one type by falling points, and those with as
many points in the order of their ids, because sorting keeps the order of the table.
Whether an entity is among the first ones shown is therefore a matter of how many
entities rank before it.
-/
namespace MemoryGraph

theorem sumOf_eq_sum {α : Type} (f : α → Nat) (as : List α) : sumOf f as = (as.map f).sum := by
  induction as with
  | nil => rfl
  | cons a as ih => rw [sumOf_cons, ih, List.map_cons, List.sum_cons]

theorem sumOf_append {α : Type} (f : α → Nat) (as bs : List α) :
    sumOf f (as ++ bs) = sumOf f as + sumOf f bs := by
  simp only [sumOf_eq_sum, List.map_append, List.sum_append]

theorem le_sumOf_of_mem {α : Type} (f : α → Nat) {as : List α} {a : α} (h : a ∈ as) :
    f a ≤ sumOf f as := by
  rw [sumOf_eq_sum]
  exact List.le_sum_of_mem (List.mem_map_of_mem h)

namespace Entity

variable {e f g : Entity} {tokens : List String}

/-! ## Points -/

/-- The points of an entity for the words of a query. -/
def points (e : Entity) (tokens : List String) : Nat := e.halfScore tokens / 2

/-- An entity with what a search shows of it. -/
def asMatch (tokens : List String) (e : Entity) : WordMatch where
  entity := e
  score := e.points tokens
  fields := e.matchedFields tokens

@[simp] theorem asMatch_entity : (e.asMatch tokens).entity = e := rfl

@[simp] theorem asMatch_score : (e.asMatch tokens).score = e.points tokens := rfl

@[simp] theorem asMatch_fields : (e.asMatch tokens).fields = e.matchedFields tokens := rfl

theorem score?_eq (e : Entity) (tokens : List String) :
    e.score? tokens =
      if 1 ≤ e.points tokens then some (e.points tokens, e.matchedFields tokens) else none := by
  unfold score? points
  split
  · rw [if_neg (by omega)]
  · rw [if_pos (by omega)]

/-- An entity with a point is shown with its points and the fields that matched. -/
theorem score?_map (e : Entity) (tokens : List String) :
    (e.score? tokens).map (fun (score, fields) => { entity := e, score, fields : WordMatch }) =
      if 1 ≤ e.points tokens then some (e.asMatch tokens) else none := by
  rw [score?_eq]
  split <;> rfl

theorem asMatch_inj : e.asMatch tokens = f.asMatch tokens ↔ e = f := by
  constructor
  · intro h
    exact congrArg WordMatch.entity h
  · rintro rfl
    rfl

theorem mem_matchedFields {field : SearchField} :
    (e.matchedFields tokens).contains field = true ↔
      field ∈ SearchField.searched ∧ ∃ word ∈ tokens, e.matchesIn word field = true := by
  simp [matchedFields]

theorem weight_le_halfPointsIn {word : String} {field : SearchField}
    (h : e.matchesIn word field = true) : field.weight ≤ e.halfPointsIn word field := by
  rw [halfPointsIn, if_pos h]
  exact Nat.le_add_right _ _

/-- The points of the words are those in the types, in the names and in the aliases. -/
theorem sumOf_halfPoints (e : Entity) (tokens : List String) :
    sumOf e.halfPoints tokens =
      sumOf (e.halfPointsIn · .entityType) tokens + sumOf (e.halfPointsIn · .name) tokens +
        sumOf (e.halfPointsIn · .aliases) tokens := by
  induction tokens with
  | nil => rfl
  | cons word rest ih =>
    simp only [sumOf_cons, ih, halfPoints, SearchField.searched, sumOf_nil]
    omega

/-- An entity with one of the words in its type and one in its name has at least 25 points. -/
theorem le_points_of_matchesIn {word other : String} (hword : word ∈ tokens)
    (hother : other ∈ tokens) (htype : e.matchesIn word .entityType = true)
    (hname : e.matchesIn other .name = true) : 25 ≤ e.points tokens := by
  have htypes : 30 ≤ sumOf (e.halfPointsIn · .entityType) tokens :=
    (weight_le_halfPointsIn htype).trans (le_sumOf_of_mem (e.halfPointsIn · .entityType) hword)
  have hnames : 20 ≤ sumOf (e.halfPointsIn · .name) tokens :=
    (weight_le_halfPointsIn hname).trans (le_sumOf_of_mem (e.halfPointsIn · .name) hother)
  unfold points halfScore
  rw [sumOf_halfPoints]
  omega

theorem matchesWord_eq_false {word : String} :
    e.matchesWord word = false ↔ ∀ field ∈ SearchField.searched, e.matchesIn word field = false := by
  simp [matchesWord]

theorem halfPoints_eq_zero {word : String} (h : e.matchesWord word = false) :
    e.halfPoints word = 0 := by
  rw [halfPoints, sumOf_eq_sum, List.sum_eq_zero_iff]
  intro n hn
  obtain ⟨field, hfield, rfl⟩ := List.mem_map.1 hn
  have hmatches := matchesWord_eq_false.1 h field hfield
  exact if_neg (by simp [hmatches])

theorem sumOf_halfPoints_eq_zero (h : ∀ word ∈ tokens, e.matchesWord word = false) :
    sumOf e.halfPoints tokens = 0 := by
  rw [sumOf_eq_sum, List.sum_eq_zero_iff]
  intro n hn
  obtain ⟨word, hword, rfl⟩ := List.mem_map.1 hn
  exact halfPoints_eq_zero (h word hword)

/-- An entity with a point holds one of the words in one of its fields. -/
theorem exists_matchesIn_of_points (h : 1 ≤ e.points tokens) :
    ∃ word ∈ tokens, ∃ field ∈ SearchField.searched, e.matchesIn word field = true := by
  by_contra hnone
  push Not at hnone
  have hmatches : ∀ word ∈ tokens, e.matchesWord word = false := by
    intro word hword
    rw [matchesWord_eq_false]
    intro field hfield
    exact Bool.eq_false_iff.2 (hnone word hword field hfield)
  have hwords : tokens.filter e.matchesWord = [] := by
    rw [List.filter_eq_nil_iff]
    intro word hword
    simp [hmatches word hword]
  rw [points, halfScore, sumOf_halfPoints_eq_zero hmatches, hwords] at h
  exact absurd h (by decide)

/-! ## The order of the ranking -/

/-- The order in which a search shows what it found: by type, then by falling points, then by id. -/
def RanksBefore (tokens : List String) (e f : Entity) : Prop :=
  e.entityType < f.entityType ∨ e.entityType = f.entityType ∧
    (f.points tokens < e.points tokens ∨ f.points tokens = e.points tokens ∧ e.id < f.id)

instance (tokens : List String) (e f : Entity) : Decidable (e.RanksBefore tokens f) :=
  inferInstanceAs (Decidable (_ ∨ _))

namespace RanksBefore

theorem irrefl (tokens : List String) (e : Entity) : ¬ e.RanksBefore tokens e := by
  rintro (htype | ⟨_, hpoints | ⟨_, hid⟩⟩)
  · exact lt_irrefl _ htype
  · exact Nat.lt_irrefl _ hpoints
  · exact Int.lt_irrefl _ hid

theorem trans (hef : e.RanksBefore tokens f) (hfg : f.RanksBefore tokens g) :
    e.RanksBefore tokens g := by
  rcases hef with htype | ⟨htype, hef⟩
  · rcases hfg with htype' | ⟨htype', _⟩
    · exact .inl (lt_trans htype htype')
    · exact .inl (htype' ▸ htype)
  · rcases hfg with htype' | ⟨htype', hfg⟩
    · exact .inl (htype ▸ htype')
    · refine .inr ⟨htype.trans htype', ?_⟩
      rcases hef with hpoints | ⟨hpoints, hid⟩
      · rcases hfg with hpoints' | ⟨hpoints', _⟩
        · exact .inl (hpoints'.trans hpoints)
        · exact .inl (hpoints'.trans_lt hpoints)
      · rcases hfg with hpoints' | ⟨hpoints', hid'⟩
        · exact .inl (hpoints'.trans_eq hpoints)
        · exact .inr ⟨hpoints'.trans hpoints, Int.lt_trans hid hid'⟩

theorem asymm (h : e.RanksBefore tokens f) : ¬ f.RanksBefore tokens e :=
  fun hback => irrefl tokens e (h.trans hback)

end RanksBefore
end Entity

/-! ## Sorting -/

namespace WordMatch

theorem order_iff {a b : WordMatch} :
    a.order b = true ↔ a.entity.entityType < b.entity.entityType ∨
      a.entity.entityType = b.entity.entityType ∧ b.score ≤ a.score := by
  simp [order]

theorem order_trans (a b c : WordMatch) (hab : a.order b = true) (hbc : b.order c = true) :
    a.order c = true := by
  rw [order_iff] at hab hbc ⊢
  rcases hab with hab | ⟨hab, hscore⟩
  · rcases hbc with hbc | ⟨hbc, _⟩
    · exact .inl (lt_trans hab hbc)
    · exact .inl (hbc ▸ hab)
  · rcases hbc with hbc | ⟨hbc, hscore'⟩
    · exact .inl (hab ▸ hbc)
    · exact .inr ⟨hab.trans hbc, hscore'.trans hscore⟩

theorem order_total (a b : WordMatch) : (a.order b || b.order a) = true := by
  rw [Bool.or_eq_true, order_iff, order_iff]
  rcases lt_trichotomy a.entity.entityType b.entity.entityType with htype | htype | htype
  · exact .inl (.inl htype)
  · rcases Nat.le_total b.score a.score with hscore | hscore
    · exact .inl (.inr ⟨htype, hscore⟩)
    · exact .inr (.inr ⟨htype.symm, hscore⟩)
  · exact .inr (.inl htype)

end WordMatch

section Order

variable {α : Type} {R : α → α → Prop} {a b : α} {as : List α}

/-- Two related elements of an ordered list stand in their order. -/
theorem pair_sublist_of_pairwise (hasymm : ∀ {a b}, R a b → ¬ R b a) (h : as.Pairwise R)
    (ha : a ∈ as) (hb : b ∈ as) (hab : R a b) : [a, b].Sublist as := by
  induction as with
  | nil => cases ha
  | cons c as ih =>
    rw [List.pairwise_cons] at h
    rcases List.mem_cons.1 hb with rfl | hb'
    · rcases List.mem_cons.1 ha with rfl | ha'
      · exact absurd hab (hasymm hab)
      · exact absurd hab (hasymm (h.1 a ha'))
    · rcases List.mem_cons.1 ha with rfl | ha'
      · exact (List.singleton_sublist.2 hb').cons_cons _
      · exact (ih h.2 ha' hb').cons c

/-- Two elements of a list without repetition stand in one order only. -/
theorem not_pair_sublist_swap (h : as.Nodup) (hab : [a, b].Sublist as) :
    ¬ [b, a].Sublist as := by
  induction as with
  | nil => cases hab
  | cons c as ih =>
    rw [List.nodup_cons] at h
    intro hba
    cases hab with
    | cons _ hab =>
      cases hba with
      | cons _ hba => exact ih h.2 hab hba
      | cons_cons _ hba => exact h.1 (hab.subset (by simp))
    | cons_cons _ hab =>
      cases hba with
      | cons _ hba => exact h.1 (hba.subset (by simp))
      | cons_cons _ hba => exact h.1 (hba.subset (by simp))

/-- Two elements of an ordered list are one, or related in one of the two ways. -/
theorem eq_or_rel_of_pairwise (h : as.Pairwise R) (ha : a ∈ as) (hb : b ∈ as) :
    a = b ∨ R a b ∨ R b a := by
  refine List.Pairwise.forall_of_forall_of_flip (R := fun a b => a = b ∨ R a b ∨ R b a)
    ?_ ?_ ?_ ha hb
  · exact fun _ _ => .inl rfl
  · exact h.imp fun hab => .inr (.inl hab)
  · exact h.imp fun hab => .inr (.inr hab)

/-- Sorting puts a list in order, and elements that it does not tell apart stay in theirs. -/
theorem pairwise_mergeSort_of_pairwise {le : α → α → Bool}
    (htrans : ∀ a b c, le a b = true → le b c = true → le a c = true)
    (htotal : ∀ a b, (le a b || le b a) = true) (hasymm : ∀ {a b}, R a b → ¬ R b a)
    (h : as.Pairwise R) :
    (as.mergeSort le).Pairwise fun a b => le a b = true ∧ (le b a = true → R a b) := by
  have hnodup : as.Nodup := by
    refine List.Pairwise.imp ?_ h
    rintro a _ hab rfl
    exact hasymm hab hab
  have hsorted : (as.mergeSort le).Nodup := (List.mergeSort_perm as le).nodup_iff.2 hnodup
  rw [List.pairwise_iff_forall_sublist]
  intro a b hpair
  have hmem : ∀ c ∈ [a, b], c ∈ as := fun c hc => List.mem_mergeSort.1 (hpair.subset hc)
  refine ⟨List.pairwise_iff_forall_sublist.1 (List.pairwise_mergeSort htrans htotal as) hpair, ?_⟩
  intro hback
  rcases eq_or_rel_of_pairwise h (hmem a (by simp)) (hmem b (by simp)) with heq | hab | hba
  · have htwice : [a, b].Nodup := hpair.nodup hsorted
    simp [heq] at htwice
  · exact hab
  · -- The other way round before, sorting would have left them so.
    have hrows : [b, a].Sublist as :=
      pair_sublist_of_pairwise hasymm h (hmem b (by simp)) (hmem a (by simp)) hba
    have hswap : [b, a].Sublist (as.mergeSort le) :=
      List.pair_sublist_mergeSort htrans htotal hback hrows
    exact absurd hswap (not_pair_sublist_swap hsorted hpair)

/-- The first elements of a strictly ordered list are those with few before them. -/
theorem mem_take_iff_of_pairwise [DecidableRel R] (hasymm : ∀ {a b}, R a b → ¬ R b a)
    (h : as.Pairwise R) {n : Nat} :
    a ∈ as.take n ↔ a ∈ as ∧ as.countP (fun b => R b a) < n := by
  induction as generalizing n with
  | nil => simp
  | cons c as ih =>
    rw [List.pairwise_cons] at h
    cases n with
    | zero => simp
    | succ n =>
      rw [List.take_succ_cons, List.mem_cons, List.mem_cons, ih h.2, List.countP_cons]
      by_cases hca : a = c
      · subst hca
        have hnone : as.countP (fun b => decide (R b a)) = 0 := by
          rw [List.countP_eq_zero]
          intro b hb
          simpa using hasymm (h.1 b hb)
        have hself : ¬ R a a := fun haa => hasymm haa haa
        simp [hnone, hself]
      · constructor
        · rintro (hsame | ⟨ha, hcount⟩)
          · exact absurd hsame hca
          · refine ⟨.inr ha, ?_⟩
            simp only [h.1 a ha, decide_true, if_true]
            omega
        · rintro ⟨hsame | ha, hcount⟩
          · exact absurd hsame hca
          · refine .inr ⟨ha, ?_⟩
            simp only [h.1 a ha, decide_true, if_true] at hcount
            omega

end Order

namespace Store

variable {s : Store} {tokens : List String} {e : Entity}

/-- The entities that the words of a query find, in the order in which a search shows them. -/
def ranking (s : Store) (tokens : List String) : List Entity :=
  (s.entities.filter fun e => 1 ≤ e.points tokens).mergeSort fun e f =>
    (e.asMatch tokens).order (f.asMatch tokens)

/-- How many entities that are found rank before an entity. -/
def ahead (s : Store) (tokens : List String) (e : Entity) : Nat :=
  s.entities.countP fun f => 1 ≤ f.points tokens ∧ f.RanksBefore tokens e

theorem mem_ranking : e ∈ s.ranking tokens ↔ e ∈ s.entities ∧ 1 ≤ e.points tokens := by
  simp [ranking]

/-- An entity with a point is a candidate for the words. -/
theorem mem_candidatesFor (he : e ∈ s.entities) (h : 1 ≤ e.points tokens) :
    e ∈ s.candidatesFor tokens := by
  obtain ⟨word, hword, field, hfield, hmatches⟩ := Entity.exists_matchesIn_of_points h
  have hcontains : Text.contains (Text.lower (field.text e)) word = true :=
    (Bool.and_eq_true_iff.1 hmatches).2
  refine List.mem_filter.2 ⟨he, List.any_eq_true.2 ⟨word, hword, ?_⟩⟩
  refine List.any_eq_true.2 ⟨_, ?_, hcontains⟩
  cases field <;> simp_all [SearchField.searched, SearchField.text]

theorem filterMap_score? (s : Store) (tokens : List String) :
    ((s.candidatesFor tokens).filterMap fun e => (e.score? tokens).map fun (score, fields) =>
      { entity := e, score, fields : WordMatch }) =
      (s.entities.filter fun e => 1 ≤ e.points tokens).map (Entity.asMatch tokens) := by
  have hfound : (s.candidatesFor tokens).filter (fun e => 1 ≤ e.points tokens) =
      s.entities.filter fun e => 1 ≤ e.points tokens := by
    rw [candidatesFor, List.filter_filter]
    refine List.filter_congr fun e he => ?_
    rw [Bool.and_eq_left_iff_imp]
    intro hpoints
    exact (List.mem_filter.1 (mem_candidatesFor he (of_decide_eq_true hpoints))).2
  rw [← hfound, ← List.filterMap_eq_map, List.filterMap_filter]
  simp [Entity.score?_map]

/-- What a search shows are the first entities of the ranking. -/
theorem rankWords_eq (s : Store) (query : String) (limit : Nat) :
    s.rankWords query limit =
      ((s.ranking (queryWords query)).take limit).map (Entity.asMatch (queryWords query)) := by
  have hsort : ((s.entities.filter fun e => 1 ≤ e.points (queryWords query)).map
      (Entity.asMatch (queryWords query))).mergeSort WordMatch.order =
      (s.ranking (queryWords query)).map (Entity.asMatch (queryWords query)) := by
    symm
    apply List.map_mergeSort
    intro e _ f _
    rfl
  unfold rankWords
  simp only [filterMap_score?, hsort, List.map_take]
  split
  · rename_i hnone
    rcases hnone with htokens | hlimit
    · have hempty : s.ranking (queryWords query) = [] := by
        rw [List.eq_nil_iff_forall_not_mem]
        intro e he
        obtain ⟨word, hword, _⟩ := Entity.exists_matchesIn_of_points (mem_ranking.1 he).2
        rw [List.isEmpty_iff.1 htokens] at hword
        cases hword
      rw [hempty, List.map_nil, List.take_nil]
    · rw [hlimit]
      rfl
  · rfl

theorem nodup_ranking (hk : s.Keyed) : (s.ranking tokens).Nodup := by
  have hnodup : s.entities.Nodup := List.Nodup.of_map Entity.id hk.entities.nodup_ids
  exact (List.mergeSort_perm _ _).nodup_iff.2 (hnodup.filter _)

/-- Entities of one type with as many points keep the order of the table, which is that of ids. -/
theorem pairwise_ranking (hk : s.Keyed) :
    (s.ranking tokens).Pairwise (Entity.RanksBefore tokens) := by
  have hrows : (s.entities.filter fun e => 1 ≤ e.points tokens).Pairwise fun e f => e.id < f.id :=
    (hk.entities.filter _).pairwise
  refine (pairwise_mergeSort_of_pairwise ?_ ?_ Int.lt_asymm hrows).imp ?_
  · intro e f g
    exact WordMatch.order_trans (e.asMatch tokens) (f.asMatch tokens) (g.asMatch tokens)
  · intro e f
    exact WordMatch.order_total (e.asMatch tokens) (f.asMatch tokens)
  · rintro e f ⟨horder, hid⟩
    rcases WordMatch.order_iff.1 horder with htype | ⟨htype, hscore⟩
    · exact .inl htype
    · rcases Nat.lt_or_eq_of_le hscore with hpoints | hpoints
      · exact .inr ⟨htype, .inl hpoints⟩
      · have hback : (f.asMatch tokens).order (e.asMatch tokens) = true :=
          WordMatch.order_iff.2 (.inr ⟨htype.symm, hpoints.ge⟩)
        exact .inr ⟨htype, .inr ⟨hpoints, hid hback⟩⟩

/-- The first of the ranking are ranked as well. -/
theorem pairwise_take_ranking (hk : s.Keyed) {limit : Nat} :
    ((s.ranking tokens).take limit).Pairwise (Entity.RanksBefore tokens) :=
  (pairwise_ranking hk).sublist (List.take_sublist _ _)

/-- An entity is among the first of the ranking when few entities rank before it. -/
theorem mem_take_ranking (hk : s.Keyed) {limit : Nat} :
    e ∈ (s.ranking tokens).take limit ↔
      e ∈ s.entities ∧ 1 ≤ e.points tokens ∧ s.ahead tokens e < limit := by
  have hcount : (s.ranking tokens).countP (fun f => f.RanksBefore tokens e) = s.ahead tokens e := by
    rw [ranking, (List.mergeSort_perm _ _).countP_eq, List.countP_filter, ahead]
    exact List.countP_congr fun f _ => by simp [and_comm]
  rw [mem_take_iff_of_pairwise Entity.RanksBefore.asymm (pairwise_ranking hk), hcount, mem_ranking,
    and_assoc]

end Store
end MemoryGraph
