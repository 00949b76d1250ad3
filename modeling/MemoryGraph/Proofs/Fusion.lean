-- SUMMARY: A fused ranking shows every id once, with the worth of all its places in both rankings, the best of them first.
import MemoryGraph.Proofs.AliasUnion
import MemoryGraph.Proofs.Ranking
import MemoryGraph.Search.Fusion
import Mathlib.Algebra.BigOperators.Intervals
import Mathlib.Algebra.Order.BigOperators.Group.Finset
import Mathlib.Algebra.Order.Field.Basic
import Mathlib.Algebra.Order.Field.Rat
import Mathlib.Tactic.Positivity

/-!
# What a fusion shows

Both rankings are gone through place by place, and each place credits the entity that
stands there. After any number of credits the ranking so far holds each credited id
once, in the order of the first credits, with the entity that was credited first and
all that its credits add up to. One more credit keeps this, in whatever arithmetic the
worths are added up, so that it holds of a fusion before it is sorted and cut.

In rational numbers the score of an id is the sum of the reciprocals that its places
are worth. Sorting by falling scores leaves ids with the same score in the order of
their first credits, and whoever stands before another wherever that one stands is
worth more at each of these places, and so in all.
-/
namespace MemoryGraph

open Text

/-! ## Credits -/

/-- What a place of a ranking gives to the entity that stands there. -/
structure Credit where
  entity : Entity
  place : Nat
  fields : List SearchField

namespace Credit

/-- The credits of a ranking from a place on, given the entities with what matched. -/
def fromPlace (place : Nat) (found : List (Entity × List SearchField)) : List Credit :=
  (found.zipIdx place).map fun (found, place) => { entity := found.1, place, fields := found.2 }

/-- The credits of a ranking by words and then of a ranking by meaning. -/
def ofRankings (byWords : List WordMatch) (byMeaning : List MeaningMatch) : List Credit :=
  fromPlace 0 (byWords.map fun m => (m.entity, m.fields)) ++
    fromPlace 0 (byMeaning.map fun m => (m.entity, [.semantic]))

variable {α : Type} [RankArithmetic α]

/-- A ranking after one more credit. -/
def enter (ranked : List (Ranked α)) (c : Credit) : List (Ranked α) :=
  credit c.entity (placeValue c.place) c.fields ranked

/-- The ranking that credits make one after the other. -/
def gather (credits : List Credit) : List (Ranked α) := credits.foldl enter []

theorem gather_concat (credits : List Credit) (c : Credit) :
    gather (α := α) (credits ++ [c]) = enter (gather credits) c := by
  rw [gather, List.foldl_append]
  rfl

theorem creditWords_eq (place : Nat) (byWords : List WordMatch) (ranked : List (Ranked α)) :
    creditWords place byWords ranked =
      (fromPlace place (byWords.map fun m => (m.entity, m.fields))).foldl enter ranked := by
  induction byWords generalizing place ranked with
  | nil => rfl
  | cons m rest ih => exact ih (place + 1) (credit m.entity (placeValue place) m.fields ranked)

theorem creditMeaning_eq (place : Nat) (byMeaning : List MeaningMatch) (ranked : List (Ranked α)) :
    creditMeaning place byMeaning ranked =
      (fromPlace place (byMeaning.map fun m => (m.entity, [.semantic]))).foldl enter ranked := by
  induction byMeaning generalizing place ranked with
  | nil => rfl
  | cons m rest ih => exact ih (place + 1) (credit m.entity (placeValue place) [.semantic] ranked)

/-- What the credits of both rankings make, sorted and not yet cut off. -/
def sorted (byWords : List WordMatch) (byMeaning : List MeaningMatch) : List (Ranked α) :=
  (gather (ofRankings byWords byMeaning)).mergeSort Ranked.order

theorem fuseRankings_eq (byWords : List WordMatch) (byMeaning : List MeaningMatch) (limit : Nat) :
    fuseRankings (α := α) byWords byMeaning limit = (sorted byWords byMeaning).take limit := by
  rw [fuseRankings, creditWords_eq, creditMeaning_eq, sorted, gather, ofRankings,
    List.foldl_append]

end Credit

/-! ## What credits add up to -/

section

variable {α : Type} [RankArithmetic α] {credits : List Credit} {ranked : List (Ranked α)}
  {c : Credit} {r : Ranked α}

/-- The credits of an id. -/
def Credit.ofId (credits : List Credit) (id : Id) : List Credit :=
  credits.filter fun c => c.entity.id = id

/-- What all credits of an id are worth, added up from the first one. -/
def Credit.total (credits : List Credit) (id : Id) : α :=
  ((ofId credits id).map fun c => placeValue c.place).foldl RankArithmetic.add RankArithmetic.zero

/-- An entry before its first credit. -/
def Ranked.blank (e : Entity) : Ranked α where
  entity := e
  score := RankArithmetic.zero
  fields := []

/-- An entry after a credit of its id. -/
def Ranked.credited (r : Ranked α) (c : Credit) : Ranked α where
  entity := r.entity
  score := RankArithmetic.add r.score (placeValue c.place)
  fields := addFields r.fields c.fields

/-- An entry holds the first entity that was credited under its id, with the worth of all credits
of the id and all that matched. -/
structure Ranked.Sums (r : Ranked α) (credits : List Credit) : Prop where
  entity : (credits.map Credit.entity).find? (fun e => e.id = r.entity.id) = some r.entity
  score : r.score = Credit.total credits r.entity.id
  fields : r.fields = distinct ((Credit.ofId credits r.entity.id).flatMap Credit.fields)

/-- A ranking holds each credited id once, in the order of the first credits. -/
structure Gathered (ranked : List (Ranked α)) (credits : List Credit) : Prop where
  ids : ranked.map (·.entity.id) = distinct (credits.map (·.entity.id))
  sums : ∀ r ∈ ranked, r.Sums credits

/-- Fields that are added are those of the whole list that did not stand in it before. -/
theorem addFields_distinct (fields more : List SearchField) :
    addFields (distinct fields) more = distinct (fields ++ more) := by
  induction more generalizing fields with
  | nil => rw [List.append_nil]; rfl
  | cons field rest ih =>
    have hone : addFields (distinct fields) (field :: rest) =
        addFields (distinct (fields ++ [field])) rest := by
      rw [distinct_concat]
      rfl
    rw [hone, ih, List.append_assoc, List.singleton_append]

theorem Credit.ofId_append (credits more : List Credit) (id : Id) :
    ofId (credits ++ more) id = ofId credits id ++ ofId more id :=
  List.filter_append ..

theorem Credit.ofId_concat (credits : List Credit) (c : Credit) (id : Id) :
    ofId (credits ++ [c]) id =
      if c.entity.id = id then ofId credits id ++ [c] else ofId credits id := by
  by_cases hid : c.entity.id = id <;> simp [ofId, hid]

theorem Credit.total_concat (credits : List Credit) (c : Credit) :
    total (α := α) (credits ++ [c]) c.entity.id =
      RankArithmetic.add (total credits c.entity.id) (placeValue c.place) := by
  rw [total, ofId_concat, if_pos rfl, List.map_append, List.foldl_append]
  rfl

/-- The ids of a ranking after one more credit. -/
theorem map_id_enter (ranked : List (Ranked α)) (c : Credit) :
    (Credit.enter ranked c).map (·.entity.id) =
      if (ranked.map (·.entity.id)).contains c.entity.id then ranked.map (·.entity.id)
      else ranked.map (·.entity.id) ++ [c.entity.id] := by
  induction ranked with
  | nil => rfl
  | cons first rest ih =>
    unfold Credit.enter at ih ⊢
    rw [credit]
    by_cases hid : first.entity.id = c.entity.id
    · simp [hid]
    · rw [if_neg hid, List.map_cons, ih]
      have hne : ¬ c.entity.id = first.entity.id := fun h => hid h.symm
      split <;> simp_all

/-- An entry of a ranking after one more credit: one of another id, the one of its id with the
credit, or a new one. -/
theorem mem_enter (hnodup : (ranked.map (·.entity.id)).Nodup) (h : r ∈ Credit.enter ranked c) :
    r ∈ ranked ∧ r.entity.id ≠ c.entity.id ∨
    (∃ old ∈ ranked, old.entity.id = c.entity.id ∧ r = old.credited c) ∨
    c.entity.id ∉ ranked.map (·.entity.id) ∧ r = (Ranked.blank c.entity).credited c := by
  induction ranked with
  | nil => exact .inr (.inr ⟨by simp, List.mem_singleton.1 h⟩)
  | cons first rest ih =>
    rw [List.map_cons, List.nodup_cons] at hnodup
    rw [Credit.enter, credit] at h
    split at h
    · rename_i hid
      rcases List.mem_cons.1 h with hfirst | hrest
      · exact .inr (.inl ⟨first, List.mem_cons_self, hid, hfirst⟩)
      · refine .inl ⟨List.mem_cons_of_mem _ hrest, fun hr => hnodup.1 ?_⟩
        rw [hid, ← hr]
        exact List.mem_map_of_mem hrest
    · rename_i hid
      rcases List.mem_cons.1 h with rfl | hrest
      · exact .inl ⟨List.mem_cons_self, hid⟩
      · rcases ih hnodup.2 hrest with ⟨hr, hne⟩ | ⟨old, hold, hsame, hr⟩ | ⟨hnew, hr⟩
        · exact .inl ⟨List.mem_cons_of_mem _ hr, hne⟩
        · exact .inr (.inl ⟨old, List.mem_cons_of_mem _ hold, hsame, hr⟩)
        · refine .inr (.inr ⟨?_, hr⟩)
          rw [List.map_cons, List.mem_cons, not_or]
          exact ⟨fun h => hid h.symm, hnew⟩

namespace Ranked.Sums

/-- A credit of another id changes nothing. -/
theorem of_other (h : r.Sums credits) (hne : c.entity.id ≠ r.entity.id) :
    r.Sums (credits ++ [c]) := by
  have hsame : Credit.ofId (credits ++ [c]) r.entity.id = Credit.ofId credits r.entity.id := by
    rw [Credit.ofId_concat, if_neg hne]
  refine ⟨?_, ?_, ?_⟩
  · rw [List.map_append, List.find?_append, h.entity, Option.some_or]
  · rw [Credit.total, hsame]
    exact h.score
  · rw [hsame]
    exact h.fields

/-- A further credit of the id. -/
theorem credited (h : r.Sums credits) (hid : r.entity.id = c.entity.id) :
    (r.credited c).Sums (credits ++ [c]) := by
  refine ⟨?_, ?_, ?_⟩
  · rw [Ranked.credited, List.map_append, List.find?_append, h.entity, Option.some_or]
  · rw [Ranked.credited, hid, Credit.total_concat, h.score, hid]
  · rw [Ranked.credited, Credit.ofId_concat, if_pos hid.symm, List.flatMap_append,
      List.flatMap_singleton, h.fields, addFields_distinct]

/-- The first credit of an id. -/
theorem of_new (hnew : c.entity.id ∉ credits.map (·.entity.id)) :
    ((blank c.entity : Ranked α).credited c).Sums (credits ++ [c]) := by
  have hfirst : (credits.map Credit.entity).find? (fun e => e.id = c.entity.id) = none := by
    rw [List.find?_eq_none]
    intro e he hid
    obtain ⟨other, hother, rfl⟩ := List.mem_map.1 he
    exact hnew (List.mem_map.2 ⟨other, hother, of_decide_eq_true hid⟩)
  have hnone : Credit.ofId credits c.entity.id = [] := by
    rw [Credit.ofId, List.filter_eq_nil_iff]
    intro other hother hid
    exact hnew (List.mem_map.2 ⟨other, hother, of_decide_eq_true hid⟩)
  have hone : Credit.ofId (credits ++ [c]) c.entity.id = [c] := by
    rw [Credit.ofId_concat, if_pos rfl, hnone, List.nil_append]
  refine ⟨?_, ?_, ?_⟩
  · rw [Ranked.credited, blank, List.map_append, List.find?_append, hfirst]
    simp
  · rw [Ranked.credited, blank, Credit.total, hone]
    rfl
  · rw [Ranked.credited, blank, hone, List.flatMap_singleton]
    exact addFields_distinct [] c.fields

end Ranked.Sums

/-- One more credit. -/
theorem Gathered.enter (h : Gathered ranked credits) (c : Credit) :
    Gathered (Credit.enter ranked c) (credits ++ [c]) := by
  have hnodup : (ranked.map (·.entity.id)).Nodup := h.ids ▸ distinct_nodup _
  constructor
  · rw [map_id_enter, h.ids, List.map_append, List.map_singleton, distinct_concat]
  · intro r hr
    rcases mem_enter hnodup hr with ⟨hr, hne⟩ | ⟨old, hold, hsame, rfl⟩ | ⟨hnew, rfl⟩
    · exact (h.sums r hr).of_other (Ne.symm hne)
    · exact (h.sums old hold).credited hsame
    · rw [h.ids, mem_distinct] at hnew
      exact .of_new hnew

/-- All credits one after the other. -/
theorem gathered_gather (credits : List Credit) :
    Gathered (Credit.gather (α := α) credits) credits := by
  induction credits using List.reverseRecOn with
  | nil => exact ⟨rfl, by simp [Credit.gather]⟩
  | append_singleton credits c ih =>
    rw [Credit.gather_concat]
    exact ih.enter c

/-! ## Sorted and cut off -/

variable {byWords : List WordMatch} {byMeaning : List MeaningMatch} {limit : Nat}

theorem Credit.map_entity_fromPlace (place : Nat) (found : List (Entity × List SearchField)) :
    (fromPlace place found).map Credit.entity = found.map Prod.fst := by
  induction found generalizing place with
  | nil => rfl
  | cons first rest ih => exact congrArg (first.1 :: ·) (ih (place + 1))

theorem Credit.map_entity_ofRankings (byWords : List WordMatch) (byMeaning : List MeaningMatch) :
    (ofRankings byWords byMeaning).map Credit.entity =
      byWords.map (·.entity) ++ byMeaning.map (·.entity) := by
  rw [ofRankings, List.map_append, map_entity_fromPlace, map_entity_fromPlace, List.map_map,
    List.map_map]
  rfl

theorem Credit.map_id_ofRankings (byWords : List WordMatch) (byMeaning : List MeaningMatch) :
    (ofRankings byWords byMeaning).map (·.entity.id) =
      byWords.map (·.entity.id) ++ byMeaning.map (·.entity.id) := by
  have hids := congrArg (List.map Entity.id) (map_entity_ofRankings byWords byMeaning)
  simpa [Function.comp_def] using hids

/-- Before it is sorted, a fusion holds the ids of both rankings in the order of their first
places. -/
theorem map_id_gather (byWords : List WordMatch) (byMeaning : List MeaningMatch) :
    (Credit.gather (α := α) (Credit.ofRankings byWords byMeaning)).map (·.entity.id) =
      distinct (byWords.map (·.entity.id) ++ byMeaning.map (·.entity.id)) := by
  rw [(gathered_gather _).ids, Credit.map_id_ofRankings]

/-- Sorting moves ids and nothing else. -/
theorem map_id_sorted_perm (byWords : List WordMatch) (byMeaning : List MeaningMatch) :
    ((Credit.sorted (α := α) byWords byMeaning).map (·.entity.id)).Perm
      (distinct (byWords.map (·.entity.id) ++ byMeaning.map (·.entity.id))) := by
  rw [← map_id_gather (α := α)]
  exact (List.mergeSort_perm _ _).map _

theorem sums_of_mem_sorted (h : r ∈ Credit.sorted byWords byMeaning) :
    r.Sums (Credit.ofRankings byWords byMeaning) :=
  (gathered_gather _).sums r (List.mem_mergeSort.1 h)

theorem sums_of_mem_fuseRankings (h : r ∈ fuseRankings byWords byMeaning limit) :
    r.Sums (Credit.ofRankings byWords byMeaning) := by
  rw [Credit.fuseRankings_eq] at h
  exact sums_of_mem_sorted (List.mem_of_mem_take h)

/-- Whatever a fusion shows stood in one of the rankings. -/
theorem entity_of_mem_fuseRankings (h : r ∈ fuseRankings byWords byMeaning limit) :
    r.entity ∈ byWords.map (·.entity) ++ byMeaning.map (·.entity) := by
  have hfirst := (sums_of_mem_fuseRankings h).entity
  rw [Credit.map_entity_ofRankings] at hfirst
  exact List.mem_of_find?_eq_some hfirst

theorem nodup_fuseRankings (byWords : List WordMatch) (byMeaning : List MeaningMatch)
    (limit : Nat) :
    ((fuseRankings (α := α) byWords byMeaning limit).map (·.entity.id)).Nodup := by
  rw [Credit.fuseRankings_eq]
  refine List.Nodup.sublist ((List.take_sublist _ _).map _) ?_
  exact (map_id_sorted_perm byWords byMeaning).nodup_iff.2 (distinct_nodup _)

theorem length_fuseRankings (byWords : List WordMatch) (byMeaning : List MeaningMatch)
    (limit : Nat) :
    (fuseRankings (α := α) byWords byMeaning limit).length =
      min limit (byWords.map (·.entity.id) ++ byMeaning.map (·.entity.id)).toFinset.card := by
  have hids := (map_id_sorted_perm (α := α) byWords byMeaning).length_eq
  have hcard : (distinct (byWords.map (·.entity.id) ++ byMeaning.map (·.entity.id))).length =
      (byWords.map (·.entity.id) ++ byMeaning.map (·.entity.id)).toFinset.card := by
    rw [← List.toFinset_card_of_nodup (distinct_nodup _)]
    congr 1
    ext id
    simp only [List.mem_toFinset, mem_distinct]
  rw [List.length_map] at hids
  rw [Credit.fuseRankings_eq, List.length_take, hids, hcard]

end

/-! ## Scores as rational numbers -/

/-- What an id gains from a ranking: for each of its places the reciprocal of 61 and as many as
stand before. -/
def gain (ids : List Id) (id : Id) : ℚ :=
  ∑ place ∈ Finset.range ids.length with ids[place]? = some id, 1 / ((61 + place : Nat) : ℚ)

section

variable {ids : List Id} {id a b : Id}

theorem gain_concat (ids : List Id) (last id : Id) :
    gain (ids ++ [last]) id =
      gain ids id + if last = id then 1 / ((61 + ids.length : Nat) : ℚ) else 0 := by
  simp only [gain, Finset.sum_filter]
  rw [List.length_append, List.length_singleton, Finset.sum_range_succ, List.getElem?_concat_length]
  congr 1
  · refine Finset.sum_congr rfl fun place hplace => ?_
    rw [List.getElem?_append_left (Finset.mem_range.1 hplace)]
  · simp

theorem gain_nonneg (ids : List Id) (id : Id) : 0 ≤ gain ids id :=
  Finset.sum_nonneg fun _ _ => by positivity

theorem gain_eq_zero (h : id ∉ ids) : gain ids id = 0 := by
  rw [gain, Finset.sum_filter]
  refine Finset.sum_eq_zero fun place _ => if_neg fun hplace => h ?_
  exact List.mem_of_getElem? hplace

/-- An id that stands in a ranking once gains what this place is worth. -/
theorem gain_of_nodup (hnodup : ids.Nodup) (h : id ∈ ids) :
    gain ids id = 1 / ((61 + ids.idxOf id : Nat) : ℚ) := by
  have hone : (Finset.range ids.length).filter (fun place => ids[place]? = some id) =
      {ids.idxOf id} := by
    ext place
    rw [Finset.mem_filter, Finset.mem_range, Finset.mem_singleton]
    constructor
    · rintro ⟨hplace, hid⟩
      rw [List.getElem?_eq_getElem hplace, Option.some_inj] at hid
      rw [← hid, hnodup.idxOf_getElem]
    · rintro rfl
      exact ⟨List.idxOf_lt_length_of_mem h, List.getElem?_idxOf h⟩
  rw [gain, hone, Finset.sum_singleton]

/-- The first occurrences in a list stand in the order of their places. -/
theorem pairwise_idxOf_distinct (ids : List Id) :
    (distinct ids).Pairwise fun a b => ids.idxOf a < ids.idxOf b := by
  induction ids using List.reverseRecOn with
  | nil => exact List.Pairwise.nil
  | append_singleton ids last ih =>
    have hbefore : ∀ id ∈ distinct ids, (ids ++ [last]).idxOf id = ids.idxOf id := by
      intro id hid
      exact List.idxOf_append_of_mem (mem_distinct.1 hid)
    have hkept : (distinct ids).Pairwise fun a b =>
        (ids ++ [last]).idxOf a < (ids ++ [last]).idxOf b := by
      refine List.Pairwise.imp_of_mem ?_ ih
      intro a b ha hb hab
      rwa [hbefore a ha, hbefore b hb]
    rw [distinct_concat]
    split
    · exact hkept
    · rename_i hnew
      have hlast : last ∉ ids := by simpa [mem_distinct] using hnew
      rw [List.pairwise_append]
      refine ⟨hkept, List.pairwise_singleton _ _, ?_⟩
      intro id hid other hother
      rw [List.mem_singleton.1 hother, hbefore id hid, List.idxOf_append_of_notMem hlast]
      exact Nat.lt_add_right _ (List.idxOf_lt_length_of_mem (mem_distinct.1 hid))

/-- Of two ids that stand in a ranking once, the earlier one gains more. -/
theorem gain_lt_of_sublist (hnodup : ids.Nodup) (h : [a, b].Sublist ids) :
    gain ids b < gain ids a := by
  have hplaces : ids.idxOf a < ids.idxOf b := by
    have hself : distinct ids = ids := distinctBy_eq_self hnodup
    have hordered := pairwise_idxOf_distinct ids
    rw [hself] at hordered
    exact List.pairwise_iff_forall_sublist.1 hordered h
  rw [gain_of_nodup hnodup (h.subset (by simp)), gain_of_nodup hnodup (h.subset (by simp))]
  apply one_div_lt_one_div_of_lt
  · positivity
  · exact_mod_cast Nat.add_lt_add_left hplaces 61

end

/-! ## The exact ranking -/

theorem placeValue_eq (place : Nat) : (placeValue place : ℚ) = 1 / ((61 + place : Nat) : ℚ) := by
  rw [Nat.add_comm 61 place, placeValue, Nat.add_assoc, Nat.add_left_comm]
  rfl

namespace Credit

theorem total_eq_sum (credits : List Credit) (id : Id) :
    (total credits id : ℚ) = ((ofId credits id).map fun c => placeValue c.place).sum := by
  rw [total, List.sum_eq_foldl]
  rfl

theorem total_append (credits more : List Credit) (id : Id) :
    (total (credits ++ more) id : ℚ) = total credits id + total more id := by
  simp only [total_eq_sum, ofId_append, List.map_append, List.sum_append]

/-- The credits of a ranking add up to what an id gains from it. -/
theorem total_fromPlace (found : List (Entity × List SearchField)) (id : Id) :
    (total (fromPlace 0 found) id : ℚ) = gain (found.map fun f => f.1.id) id := by
  induction found using List.reverseRecOn with
  | nil => rfl
  | append_singleton found last ih =>
    have hlast : fromPlace 0 (found ++ [last]) =
        fromPlace 0 found ++ [⟨last.1, found.length, last.2⟩] := by
      simp [fromPlace, List.zipIdx_append]
    rw [hlast, total_append, ih, List.map_append, List.map_singleton, gain_concat, List.length_map]
    congr 1
    by_cases hid : last.1.id = id <;> simp [total_eq_sum, ofId, hid, placeValue_eq]

theorem flatMap_fields_fromPlace (place : Nat) (found : List (Entity × List SearchField))
    (id : Id) :
    (ofId (fromPlace place found) id).flatMap Credit.fields =
      (found.filter fun f => f.1.id = id).flatMap Prod.snd := by
  induction found generalizing place with
  | nil => rfl
  | cons first rest ih =>
    have hfirst : fromPlace place (first :: rest) =
        ⟨first.1, place, first.2⟩ :: fromPlace (place + 1) rest := rfl
    rw [hfirst, ofId]
    by_cases hid : first.1.id = id
    · rw [List.filter_cons_of_pos (by simpa using hid),
        List.filter_cons_of_pos (by simpa using hid), List.flatMap_cons, List.flatMap_cons]
      exact congrArg (first.2 ++ ·) (ih (place + 1))
    · rw [List.filter_cons_of_neg (by simpa using hid),
        List.filter_cons_of_neg (by simpa using hid)]
      exact ih (place + 1)

end Credit

section

variable {byWords : List WordMatch} {byMeaning : List MeaningMatch} {limit : Nat}

/-- What an id gains from both rankings. -/
def fusedScore (byWords : List WordMatch) (byMeaning : List MeaningMatch) (id : Id) : ℚ :=
  gain (byWords.map (·.entity.id)) id + gain (byMeaning.map (·.entity.id)) id

/-- What a fused ranking shows of an id: its first entity, what it gains from both rankings, and the
fields that matched, with the meaning where the ranking by meaning has the id. -/
structure Ranked.ShownOf (byWords : List WordMatch) (byMeaning : List MeaningMatch)
    (m : Ranked ℚ) : Prop where
  entity : ((byWords.map (·.entity)).find? fun e => e.id = m.entity.id).or
    ((byMeaning.map (·.entity)).find? fun e => e.id = m.entity.id) = some m.entity
  score : m.score = fusedScore byWords byMeaning m.entity.id
  fields : m.fields = distinct (
    (byWords.filter fun n => n.entity.id = m.entity.id).flatMap (·.fields) ++
      if m.entity.id ∈ byMeaning.map (·.entity.id) then [.semantic] else [])

/-- The order of a fused ranking: by falling scores, and where these are the same by the first place
in the lists. -/
def Ranked.GoesBefore (ids : List Id) (m n : Ranked ℚ) : Prop :=
  n.score < m.score ∨ n.score = m.score ∧ ids.idxOf m.entity.id < ids.idxOf n.entity.id

theorem Ranked.GoesBefore.asymm {ids : List Id} {m n : Ranked ℚ} (h : m.GoesBefore ids n) :
    ¬ n.GoesBefore ids m := by
  rintro (hless | ⟨hsame, hplace⟩)
  · rcases h with hmore | ⟨hsame, _⟩
    · exact lt_asymm hless hmore
    · exact hless.ne' hsame
  · rcases h with hmore | ⟨_, hplace'⟩
    · exact hmore.ne hsame.symm
    · exact Nat.lt_asymm hplace hplace'

theorem Ranked.GoesBefore.score_le {ids : List Id} {m n : Ranked ℚ} (h : m.GoesBefore ids n) :
    n.score ≤ m.score := by
  rcases h with hless | ⟨hsame, _⟩
  · exact hless.le
  · exact hsame.le

/-- An element that only repeats is kept once behind others. -/
theorem distinct_append_flatMap_const {α β : Type} [BEq β] [LawfulBEq β] (bs : List β)
    (as : List α) (b : β) :
    distinct (bs ++ as.flatMap fun _ => [b]) = distinct (bs ++ if as = [] then [] else [b]) := by
  cases as with
  | nil => rfl
  | cons a rest =>
    have hknown : ∀ c ∈ rest.flatMap fun _ => [b], ∃ d ∈ bs ++ [b], d = c := by
      intro c hc
      obtain ⟨_, _, hc⟩ := List.mem_flatMap.1 hc
      exact ⟨b, by simp, (List.mem_singleton.1 hc).symm⟩
    have hrepeats : distinct ((bs ++ [b]) ++ rest.flatMap fun _ => [b]) = distinct (bs ++ [b]) :=
      distinctBy_append_of_known hknown
    rw [List.flatMap_cons, ← List.append_assoc, hrepeats, if_neg (List.cons_ne_nil a rest)]

theorem Ranked.Sums.shownOf {m : Ranked ℚ} (h : m.Sums (Credit.ofRankings byWords byMeaning)) :
    m.ShownOf byWords byMeaning := by
  constructor
  · rw [← List.find?_append, ← Credit.map_entity_ofRankings]
    exact h.entity
  · rw [h.score, Credit.ofRankings, Credit.total_append, Credit.total_fromPlace,
      Credit.total_fromPlace, List.map_map, List.map_map]
    rfl
  · have hids : byMeaning.filter (fun n => n.entity.id = m.entity.id) = [] ↔
        m.entity.id ∉ byMeaning.map (·.entity.id) := by
      rw [List.filter_eq_nil_iff, List.mem_map]
      simp
    have hwords : (Credit.ofId (Credit.fromPlace 0 (byWords.map fun n => (n.entity, n.fields)))
        m.entity.id).flatMap Credit.fields =
        (byWords.filter fun n => n.entity.id = m.entity.id).flatMap (·.fields) := by
      rw [Credit.flatMap_fields_fromPlace, List.filter_map, List.flatMap_map]
      rfl
    have hmeaning : (Credit.ofId
        (Credit.fromPlace 0 (byMeaning.map fun n => (n.entity, [.semantic])))
        m.entity.id).flatMap Credit.fields =
        (byMeaning.filter fun n => n.entity.id = m.entity.id).flatMap fun _ => [.semantic] := by
      rw [Credit.flatMap_fields_fromPlace, List.filter_map, List.flatMap_map]
      rfl
    rw [h.fields, Credit.ofRankings, Credit.ofId_append, List.flatMap_append, hwords, hmeaning,
      distinct_append_flatMap_const]
    simp only [hids, ite_not]

theorem Ranked.order_iff {m n : Ranked ℚ} : m.order n = true ↔ n.score ≤ m.score :=
  decide_eq_true_iff

/-- Sorting puts the better scores first and leaves equal ones in the order of their places. -/
theorem pairwise_goesBefore (byWords : List WordMatch) (byMeaning : List MeaningMatch) :
    (Credit.sorted byWords byMeaning).Pairwise
      (Ranked.GoesBefore (byWords.map (·.entity.id) ++ byMeaning.map (·.entity.id))) := by
  have hplaces := pairwise_idxOf_distinct (byWords.map (·.entity.id) ++ byMeaning.map (·.entity.id))
  rw [← map_id_gather (α := ℚ), List.pairwise_map] at hplaces
  refine (pairwise_mergeSort_of_pairwise ?_ ?_ Nat.lt_asymm hplaces).imp ?_
  · intro m n o hmn hno
    rw [Ranked.order_iff] at hmn hno ⊢
    exact hno.trans hmn
  · intro m n
    rw [Bool.or_eq_true, Ranked.order_iff, Ranked.order_iff]
    exact le_total _ _
  · rintro m n ⟨horder, hback⟩
    rcases lt_or_eq_of_le (Ranked.order_iff.1 horder) with hless | hsame
    · exact .inl hless
    · exact .inr ⟨hsame, hback (Ranked.order_iff.2 hsame.ge)⟩

theorem score_of_mem_sorted {m : Ranked ℚ} (h : m ∈ Credit.sorted byWords byMeaning) :
    m.score = fusedScore byWords byMeaning m.entity.id :=
  (sums_of_mem_sorted h).shownOf.score

/-- Ids whose scores fall strictly are shown in this order. -/
theorem map_id_fuseRankings {ids : List Id}
    (hall : ids.Perm (distinct (byWords.map (·.entity.id) ++ byMeaning.map (·.entity.id))))
    (hfalling : ids.Pairwise fun a b =>
      fusedScore byWords byMeaning b < fusedScore byWords byMeaning a) :
    (fuseRankings (α := ℚ) byWords byMeaning limit).map (·.entity.id) = ids.take limit := by
  have hperm : ((Credit.sorted (α := ℚ) byWords byMeaning).map (·.entity.id)).Perm ids :=
    (map_id_sorted_perm byWords byMeaning).trans hall.symm
  have hordered : ((Credit.sorted (α := ℚ) byWords byMeaning).map (·.entity.id)).Pairwise
      fun a b => fusedScore byWords byMeaning b ≤ fusedScore byWords byMeaning a := by
    rw [List.pairwise_map]
    refine (pairwise_goesBefore byWords byMeaning).imp_of_mem ?_
    intro m n hm hn hmn
    rw [← score_of_mem_sorted hm, ← score_of_mem_sorted hn]
    exact hmn.score_le
  have hids := hperm.eq_of_pairwise ?_ hordered (hfalling.imp le_of_lt)
  · rw [Credit.fuseRankings_eq, List.map_take, hids]
  · intro a b ha hb hab hba
    rcases eq_or_rel_of_pairwise hfalling (hperm.mem_iff.1 ha) hb with heq | hless | hless
    · exact heq
    · exact absurd hba (not_le.2 hless)
    · exact absurd hab (not_le.2 hless)

/-- An id is left out only of a full ranking, and has no better score than what is shown. -/
theorem fusedScore_le_of_left_out {id : Id}
    (hid : id ∈ byWords.map (·.entity.id) ++ byMeaning.map (·.entity.id))
    (hout : id ∉ (fuseRankings (α := ℚ) byWords byMeaning limit).map (·.entity.id)) :
    (fuseRankings (α := ℚ) byWords byMeaning limit).length = limit ∧
    ∀ m ∈ fuseRankings byWords byMeaning limit, fusedScore byWords byMeaning id ≤ m.score := by
  rw [Credit.fuseRankings_eq] at hout ⊢
  have hall : id ∈ (Credit.sorted (α := ℚ) byWords byMeaning).map (·.entity.id) :=
    (map_id_sorted_perm byWords byMeaning).mem_iff.2 (mem_distinct.2 hid)
  obtain ⟨r, hr, rfl⟩ := List.mem_map.1 hall
  have hbehind : r ∈ (Credit.sorted byWords byMeaning).drop limit := by
    rw [← List.take_append_drop limit (Credit.sorted _ _), List.mem_append] at hr
    exact hr.resolve_left fun hshown => hout (List.mem_map_of_mem hshown)
  constructor
  · have hlength := List.length_pos_of_mem hbehind
    rw [List.length_drop] at hlength
    rw [List.length_take]
    omega
  · intro m hm
    have hsorted := pairwise_goesBefore byWords byMeaning
    rw [← List.take_append_drop limit (Credit.sorted _ _), List.pairwise_append] at hsorted
    rw [← score_of_mem_sorted hr]
    exact (hsorted.2.2 m hm r hbehind).score_le

/-- An id that stands before another wherever that one stands gains more. -/
theorem fusedScore_lt {a b : Id} (hwords : (byWords.map (·.entity.id)).Nodup)
    (hmeaning : (byMeaning.map (·.entity.id)).Nodup)
    (hb : b ∈ byWords.map (·.entity.id) ++ byMeaning.map (·.entity.id))
    (hfirst : b ∈ byWords.map (·.entity.id) → [a, b].Sublist (byWords.map (·.entity.id)))
    (hsecond : b ∈ byMeaning.map (·.entity.id) → [a, b].Sublist (byMeaning.map (·.entity.id))) :
    fusedScore byWords byMeaning b < fusedScore byWords byMeaning a := by
  have hle : ∀ {ids : List Id}, ids.Nodup → (b ∈ ids → [a, b].Sublist ids) →
      gain ids b ≤ gain ids a := by
    intro ids hnodup hbefore
    by_cases hb : b ∈ ids
    · exact (gain_lt_of_sublist hnodup (hbefore hb)).le
    · rw [gain_eq_zero hb]
      exact gain_nonneg ids a
  rcases List.mem_append.1 hb with hb | hb
  · exact add_lt_add_of_lt_of_le (gain_lt_of_sublist hwords (hfirst hb)) (hle hmeaning hsecond)
  · exact add_lt_add_of_le_of_lt (hle hwords hfirst) (gain_lt_of_sublist hmeaning (hsecond hb))

end

/-- A fusion shows as many ids as there are, up to the limit, each of them once: with the first
entity of the id, the sum of what all its places are worth, and all that matched. Better scores go
first, and of equal ones the id that came first; what is left out has no better score than what is
shown. Where no ranking repeats an id, whoever stands before another in every ranking that has the
other is shown before it. -/
theorem fused_of_rankings (byWords : List WordMatch) (byMeaning : List MeaningMatch) (limit : Nat) :
    let fused : List (Ranked ℚ) := fuseRankings byWords byMeaning limit
    let shown := fused.map (·.entity.id)
    let wordIds := byWords.map (·.entity.id)
    let meaningIds := byMeaning.map (·.entity.id)
    shown.Nodup ∧ fused.length = min limit (wordIds ++ meaningIds).toFinset.card ∧
    (∀ m ∈ fused, m.ShownOf byWords byMeaning) ∧
    fused.Pairwise (Ranked.GoesBefore (wordIds ++ meaningIds)) ∧
    (∀ id ∈ wordIds ++ meaningIds, id ∉ shown →
      fused.length = limit ∧ ∀ m ∈ fused, fusedScore byWords byMeaning id ≤ m.score) ∧
    (wordIds.Nodup → meaningIds.Nodup → ∀ a b, b ∈ shown →
      (b ∈ wordIds → [a, b].Sublist wordIds) → (b ∈ meaningIds → [a, b].Sublist meaningIds) →
      [a, b].Sublist shown) := by
  intro fused shown wordIds meaningIds
  have hshown : ∀ m ∈ fused, m.ShownOf byWords byMeaning :=
    fun m hm => (sums_of_mem_fuseRankings hm).shownOf
  have hordered : fused.Pairwise (Ranked.GoesBefore (wordIds ++ meaningIds)) := by
    refine List.Pairwise.sublist ?_ (pairwise_goesBefore byWords byMeaning)
    rw [show fused = _ from Credit.fuseRankings_eq byWords byMeaning limit]
    exact List.take_sublist _ _
  have hleft : ∀ id ∈ wordIds ++ meaningIds, id ∉ shown →
      fused.length = limit ∧ ∀ m ∈ fused, fusedScore byWords byMeaning id ≤ m.score :=
    fun id hid hout => fusedScore_le_of_left_out hid hout
  refine ⟨nodup_fuseRankings _ _ _, length_fuseRankings _ _ _, hshown, hordered, hleft, ?_⟩
  intro hwords hmeaning a b hb hfirst hsecond
  obtain ⟨n, hn, rfl⟩ := List.mem_map.1 hb
  have hids : n.entity.id ∈ wordIds ++ meaningIds := by
    have hentity := List.mem_map_of_mem (f := Entity.id) (entity_of_mem_fuseRankings hn)
    simpa [wordIds, meaningIds] using hentity
  have hscore : fusedScore byWords byMeaning n.entity.id < fusedScore byWords byMeaning a :=
    fusedScore_lt hwords hmeaning hids hfirst hsecond
  have ha : a ∈ shown := by
    by_contra hout
    have hin : a ∈ wordIds ++ meaningIds := by
      rcases List.mem_append.1 hids with hid | hid
      · exact List.mem_append_left _ ((hfirst hid).subset (by simp))
      · exact List.mem_append_right _ ((hsecond hid).subset (by simp))
    have hless := (hleft a hin hout).2 n hn
    rw [(hshown n hn).score] at hless
    exact absurd hscore (not_lt.2 hless)
  obtain ⟨m, hm, rfl⟩ := List.mem_map.1 ha
  have hbefore : m.GoesBefore (wordIds ++ meaningIds) n := by
    refine .inl ?_
    rwa [(hshown m hm).score, (hshown n hn).score]
  exact (pair_sublist_of_pairwise Ranked.GoesBefore.asymm hordered hm hn hbefore).map
    (·.entity.id)

/-- The second by words is the first by meaning, and of four ids three are shown. -/
theorem fused_of_second_place :
    let entity (id : Id) : Entity := { id, name := "Gadget", entityType := "Tool" }
    let byWords : List WordMatch :=
      [⟨entity 2, 20, [.name]⟩, ⟨entity 1, 15, [.name, .aliases]⟩, ⟨entity 3, 10, [.name]⟩]
    let byMeaning : List MeaningMatch :=
      [⟨entity 1, .zero⟩, ⟨entity 4, .zero⟩, ⟨entity 3, .zero⟩]
    let fused : List (Ranked ℚ) := fuseRankings byWords byMeaning 3
    fused.map (·.entity.id) = [1, 3, 2] ∧ [1, 3].Sublist (fused.map (·.entity.id)) ∧
      ∀ m ∈ fused, 1 / 62 ≤ m.score := by
  intro entity byWords byMeaning fused
  have hshown : fused.map (·.entity.id) = [1, 3, 2, 4].take 3 :=
    map_id_fuseRankings (by decide) (by decide +kernel)
  obtain ⟨_, _, _, _, hleft, hbefore⟩ := fused_of_rankings byWords byMeaning 3
  refine ⟨hshown, ?_, ?_⟩
  · refine hbefore (by decide) (by decide) 1 3 ?_ (fun _ => ?_) (fun _ => ?_)
    · exact hshown ▸ by decide
    · exact .cons 2 (List.Sublist.refl _)
    · exact .cons_cons 1 (.cons 4 (List.Sublist.refl _))
  · have hout : (4 : Id) ∉ fused.map (·.entity.id) := hshown ▸ by decide
    have hscore : fusedScore byWords byMeaning 4 = 1 / 62 := by decide +kernel
    exact hscore ▸ (hleft 4 (by decide) hout).2

end MemoryGraph
