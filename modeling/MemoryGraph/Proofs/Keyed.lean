-- SUMMARY: The ids of each table ascend and stay below the next one, so that an id names one row.
import MemoryGraph.Proofs.Write
import Mathlib.Data.List.Nodup

/-!
# Ids as keys

Rows are added under the next id of their table, which then grows, and no write
gives a row another id. Every table therefore stands in the order of its ids, no
two rows of it share one, and looking an id up finds the row that carries it.
-/
namespace MemoryGraph.Store

/-- The ids of a table ascend and are below a bound. -/
structure Ascending {α : Type} (id : α → Id) (rows : List α) (bound : Id) : Prop where
  pairwise : rows.Pairwise fun a b => id a < id b
  lt_bound : ∀ row ∈ rows, id row < bound

namespace Ascending

variable {α : Type} {id : α → Id} {rows : List α} {bound : Id}

theorem nil : Ascending id [] bound := ⟨.nil, by simp⟩

theorem nodup_ids (h : Ascending id rows bound) : (rows.map id).Nodup := by
  rw [List.Nodup, List.pairwise_map]
  exact h.pairwise.imp fun hlt => Int.ne_of_lt hlt

theorem unique (h : Ascending id rows bound) {a b : α} (ha : a ∈ rows) (hb : b ∈ rows)
    (hid : id a = id b) : a = b :=
  List.inj_on_of_nodup_map h.nodup_ids ha hb hid

theorem append (h : Ascending id rows bound) {row : α} (hrow : id row = bound) :
    Ascending id (rows ++ [row]) (bound + 1) := by
  constructor
  · rw [List.pairwise_append]
    refine ⟨h.pairwise, List.pairwise_singleton _ _, ?_⟩
    intro a ha b hb
    rw [List.mem_singleton.1 hb, hrow]
    exact h.lt_bound a ha
  · intro a ha
    rcases List.mem_append.1 ha with ha | ha
    · exact Int.lt_add_one_of_le (Int.le_of_lt (h.lt_bound a ha))
    · rw [List.mem_singleton.1 ha, hrow]
      exact Int.lt_succ bound

theorem filter (h : Ascending id rows bound) (keep : α → Bool) :
    Ascending id (rows.filter keep) bound :=
  ⟨h.pairwise.filter keep, fun row hrow => h.lt_bound row (List.mem_filter.1 hrow).1⟩

theorem map (h : Ascending id rows bound) {change : α → α} (hid : ∀ a, id (change a) = id a) :
    Ascending id (rows.map change) bound := by
  constructor
  · rw [List.pairwise_map]
    exact h.pairwise.imp fun hlt => by rwa [hid, hid]
  · intro row hrow
    obtain ⟨a, ha, rfl⟩ := List.mem_map.1 hrow
    rw [hid]
    exact h.lt_bound a ha

theorem filterMap (h : Ascending id rows bound) {f : α → Option α}
    (hid : ∀ a b, f a = some b → id b = id a) : Ascending id (rows.filterMap f) bound := by
  constructor
  · refine h.pairwise.filterMap f fun a b hab a' ha' b' hb' => ?_
    rw [hid a a' ha', hid b b' hb']
    exact hab
  · intro row hrow
    obtain ⟨a, ha, hrow⟩ := List.mem_filterMap.1 hrow
    rw [hid a row hrow]
    exact h.lt_bound a ha

theorem raise (h : Ascending id rows bound) : Ascending id rows (bound + 1) :=
  ⟨h.pairwise, fun row hrow => Int.lt_add_one_of_le (Int.le_of_lt (h.lt_bound row hrow))⟩

/-- Looking an id up finds the row that carries it. -/
theorem find?_eq_some (h : Ascending id rows bound) {key : Id} {a : α} :
    rows.find? (fun row => id row = key) = some a ↔ a ∈ rows ∧ id a = key := by
  constructor
  · intro hfind
    exact ⟨List.mem_of_find?_eq_some hfind, by simpa using List.find?_some hfind⟩
  · rintro ⟨ha, rfl⟩
    cases hfind : rows.find? (fun row => id row = id a) with
    | none => exact absurd (List.find?_eq_none.1 hfind a ha) (by simp)
    | some b =>
      have hb : id b = id a := by simpa using List.find?_some hfind
      rw [h.unique (List.mem_of_find?_eq_some hfind) ha hb]

/-- Removing a row by its id takes one row away. -/
theorem length_remove (h : Ascending id rows bound) {row : α} (hrow : row ∈ rows) :
    (rows.filter fun r => id r ≠ id row).length + 1 = rows.length := by
  have hids : ((rows.filter fun r => id r ≠ id row).map id) = (rows.map id).erase (id row) := by
    rw [h.nodup_ids.erase_eq_filter, List.filter_map]
    refine congrArg _ (List.filter_congr fun r _ => ?_)
    by_cases hid : id r = id row <;> simp [hid]
  have hmem : id row ∈ rows.map id := List.mem_map_of_mem hrow
  have hlength := List.length_erase_add_one hmem
  rw [← hids, List.length_map, List.length_map] at hlength
  exact hlength

/-- Two tables in the order of their ids are equal when they hold the same rows. -/
theorem eq_of_mem_iff {rows' : List α} {bound' : Id} (h : Ascending id rows bound)
    (h' : Ascending id rows' bound') (hmem : ∀ row, row ∈ rows ↔ row ∈ rows') : rows = rows' := by
  have hperm : rows.Perm rows' :=
    (List.perm_ext_iff_of_nodup h.nodup_ids.of_map h'.nodup_ids.of_map).2 hmem
  refine hperm.eq_of_pairwise ?_ h.pairwise h'.pairwise
  intro a b _ _ hab hba
  exact absurd hab (Int.lt_asymm hba)

end Ascending

/-- Every table stands in the order of its ids, below the next one. -/
structure Keyed (s : Store) : Prop where
  entities : Ascending Entity.id s.entities s.nextEntity
  observations : Ascending Observation.id s.observations s.nextObservation
  relations : Ascending Relation.id s.relations s.nextRelation

theorem keyed_empty : Keyed empty := ⟨.nil, .nil, .nil⟩

theorem Write.keyed {s after : Store} (h : Write s after) (hs : s.Keyed) : after.Keyed := by
  cases h with
  | addEntity hid _ _ => exact { hs with entities := hs.entities.append hid }
  | changeEntity hid _ _ =>
    refine { hs with entities := hs.entities.map fun e => ?_ }
    split
    · exact hid e
    · rfl
  | removeEntity id =>
    exact ⟨hs.entities.filter _, hs.observations.filter _, hs.relations.filter _⟩
  | addObservation hid _ _ => exact { hs with observations := hs.observations.append hid }
  | removeObservation id => exact { hs with observations := hs.observations.filter _ }
  | handOver _ =>
    refine { hs with observations := hs.observations.map fun o => ?_ }
    split <;> rfl
  | spendRelationId => exact { hs with relations := hs.relations.raise }
  | addRelation hid _ _ _ _ _ => exact { hs with relations := hs.relations.append hid }
  | keepRelations keep => exact { hs with relations := hs.relations.filter keep }
  | redirect _ _ hok =>
    obtain ⟨_, _, _, rfl⟩ := redirectRelation_eq_ok hok
    refine { hs with relations := hs.relations.map fun r => ?_ }
    split <;> rfl

namespace Keyed

variable {s : Store}

theorem entity?_eq_some (h : s.Keyed) {id : Id} {e : Entity} :
    s.entity? id = some e ↔ e ∈ s.entities ∧ e.id = id :=
  h.entities.find?_eq_some

end Keyed
end MemoryGraph.Store
