-- SUMMARY: A search for words shows the first of all entities that score, in one order of three keys, whatever was looked at first.
import MemoryGraph.Proofs.ByteOrder
import MemoryGraph.Proofs.Integrity
import MemoryGraph.Proofs.LowerWords
import MemoryGraph.Proofs.Ranking

/-!
# Searching without looking for candidates first

A search for words scores only its candidates, the entities with one of the words in
a lowercase text. A word in a text that is not empty gives points, and the only word in
an empty text is the empty one, which stands in the name as well. So the candidates
are the entities that score, and a search shows what it would show had it scored them
all.
-/
namespace MemoryGraph

open Text

namespace Entity

variable {e : Entity} {tokens : List String}

/-- A word that stands in a field gives five points or more. -/
theorem ten_le_halfPoints {word : String} {field : SearchField}
    (hfield : field ∈ SearchField.searched) (h : e.matchesIn word field = true) :
    10 ≤ e.halfPoints word := by
  have hweight : 10 ≤ field.weight := by
    have hall : ∀ field ∈ SearchField.searched, 10 ≤ field.weight := by decide
    exact hall field hfield
  calc 10 ≤ e.halfPointsIn word field := hweight.trans (weight_le_halfPointsIn h)
    _ ≤ e.halfPoints word := le_sumOf_of_mem (e.halfPointsIn word) hfield

/-- The points of an entity that has one of the words in one of its fields. -/
theorem one_le_points_of_matchesIn {word : String} {field : SearchField} (hword : word ∈ tokens)
    (hfield : field ∈ SearchField.searched) (h : e.matchesIn word field = true) :
    1 ≤ e.points tokens := by
  have hpoints : 10 ≤ e.halfScore tokens :=
    calc 10 ≤ e.halfPoints word := ten_le_halfPoints hfield h
      _ ≤ sumOf e.halfPoints tokens := le_sumOf_of_mem e.halfPoints hword
      _ ≤ e.halfScore tokens := Nat.le_add_right _ _
  unfold points
  omega

theorem isSome_score? : (e.score? tokens).isSome = true ↔ 1 ≤ e.points tokens := by
  rw [score?_eq]
  split <;> simp [*]

/-- A word in a lowercase text stands in a field with a text, in the name if in no other. -/
theorem exists_matchesIn_of_contains {word : String} {field : SearchField} (hname : e.name ≠ "")
    (hfield : field ∈ SearchField.searched) (h : contains (lower (field.text e)) word = true) :
    ∃ field ∈ SearchField.searched, e.matchesIn word field = true := by
  by_cases hempty : lower (field.text e) = ""
  · rw [hempty, contains_empty_left] at h
    refine ⟨.name, by decide, ?_⟩
    simpa [matchesIn, SearchField.text, h, contains_empty_right, lower_eq_empty] using hname
  · refine ⟨field, hfield, ?_⟩
    simpa [matchesIn, h] using hempty

end Entity

/-! ## The ranking of all entities -/

/-- The order in which a search shows what it found: by the bytes of the types, then by falling
scores, then by ids. -/
def WordMatch.Precedes (a b : WordMatch) : Prop :=
  utf8 a.entity.entityType < utf8 b.entity.entityType ∨
    a.entity.entityType = b.entity.entityType ∧
      (b.score < a.score ∨ b.score = a.score ∧ a.entity.id < b.entity.id)

instance (a b : WordMatch) : Decidable (a.Precedes b) := inferInstanceAs (Decidable (_ ∨ _))

theorem Entity.precedes_asMatch {e f : Entity} {tokens : List String} :
    (e.asMatch tokens).Precedes (f.asMatch tokens) ↔ e.RanksBefore tokens f := by
  simp only [WordMatch.Precedes, asMatch_entity, asMatch_score, utf8_lt_iff, RanksBefore]

namespace Store

variable {s : Store} {tokens : List String}

/-- All entities that score, each with its score and the fields that matched. -/
def scored (s : Store) (tokens : List String) : List WordMatch :=
  s.entities.filterMap fun e =>
    (e.score? tokens).map fun (score, fields) => { entity := e, score, fields }

/-- A list shows all entities that score, each once, in the order of a search. -/
structure Ranked (s : Store) (tokens : List String) (list : List WordMatch) : Prop where
  perm : list.Perm (s.scored tokens)
  ordered : list.Pairwise WordMatch.Precedes

theorem scored_eq (s : Store) (tokens : List String) :
    s.scored tokens =
      (s.entities.filter fun e => 1 ≤ e.points tokens).map (Entity.asMatch tokens) := by
  rw [← List.filterMap_eq_map, List.filterMap_filter]
  simp [scored, Entity.score?_map]

theorem exists_of_mem_scored {m : WordMatch} (h : m ∈ s.scored tokens) :
    ∃ e : Entity, e.asMatch tokens = m := by
  rw [scored_eq] at h
  obtain ⟨e, _, he⟩ := List.mem_map.1 h
  exact ⟨e, he⟩

/-- There is one order of what scores. -/
theorem Ranked.unique {list other : List WordMatch} (h : s.Ranked tokens list)
    (hother : s.Ranked tokens other) : list = other := by
  refine (h.perm.trans hother.perm.symm).eq_of_pairwise ?_ h.ordered hother.ordered
  intro a b ha hb hab hba
  obtain ⟨e, rfl⟩ := exists_of_mem_scored (h.perm.mem_iff.1 ha)
  obtain ⟨f, rfl⟩ := exists_of_mem_scored (hother.perm.mem_iff.1 hb)
  exact absurd (Entity.precedes_asMatch.1 hba) (Entity.precedes_asMatch.1 hab).asymm

theorem ranked_ranking (s : Store) (tokens : List String) (hk : s.Keyed) :
    s.Ranked tokens ((s.ranking tokens).map (Entity.asMatch tokens)) where
  perm := by
    rw [scored_eq]
    exact (List.mergeSort_perm _ _).map _
  ordered := by
    rw [List.pairwise_map]
    exact (pairwise_ranking hk).imp Entity.precedes_asMatch.2

/-- The candidates are the entities that score. -/
theorem candidatesFor_eq (hnames : ∀ e ∈ s.entities, e.name ≠ "") (tokens : List String) :
    s.candidatesFor tokens = s.entities.filter fun e => (e.score? tokens).isSome := by
  refine List.filter_congr fun e he => Bool.eq_iff_iff.2 ?_
  rw [Entity.isSome_score?]
  constructor
  · intro hcandidate
    obtain ⟨word, hword, htext⟩ := List.any_eq_true.1 hcandidate
    obtain ⟨field, hfield, hcontains⟩ : ∃ field ∈ SearchField.searched,
        contains (lower (field.text e)) word = true := by
      simp only [List.any_cons, List.any_nil, Bool.or_false, Bool.or_eq_true] at htext
      rcases htext with hname | htype | haliases
      · exact ⟨.name, by decide, hname⟩
      · exact ⟨.entityType, by decide, htype⟩
      · exact ⟨.aliases, by decide, haliases⟩
    obtain ⟨field, hfield, hmatches⟩ :=
      Entity.exists_matchesIn_of_contains (hnames e he) hfield hcontains
    exact Entity.one_le_points_of_matchesIn hword hfield hmatches
  · intro hpoints
    exact (List.mem_filter.1 (mem_candidatesFor he hpoints)).2

theorem rankWords_prefix (s : Store) (query : String) {limit larger : Nat} (h : limit ≤ larger) :
    s.rankWords query limit <+: s.rankWords query larger := by
  rw [rankWords_eq, rankWords_eq]
  exact (List.take_prefix_take_left h).map _

end Store

/-- A search for words shows the first of all entities that score, by the bytes of their types, then
by falling scores, then by ids. No entity that scores is missing among the candidates, all of them
score, and a smaller limit shows the first of what a larger one does. -/
theorem search_eq_full_ranking {s : Store} (h : Reachable s) (query : String) :
    (∃ ranked, (∀ list, s.Ranked (queryWords query) list ↔ list = ranked) ∧
      ∀ limit, s.rankWords query limit = ranked.take limit) ∧
    (∀ tokens, s.candidatesFor tokens = s.entities.filter fun e => (e.score? tokens).isSome) ∧
    ∀ limit larger, limit ≤ larger →
      s.rankWords query limit <+: s.rankWords query larger := by
  have hs := h.sound
  have hranked := s.ranked_ranking (queryWords query) hs.keyed
  refine ⟨⟨_, fun list => ⟨fun hlist => hlist.unique hranked, ?_⟩, ?_⟩, ?_, ?_⟩
  · rintro rfl
    exact hranked
  · intro limit
    rw [Store.rankWords_eq, List.map_take]
  · exact Store.candidatesFor_eq fun e he => (hs.settled.tidy.name e he).nonempty
  · intro limit larger hle
    exact s.rankWords_prefix query hle

/-- Types that differ in case, as many points in one type, and a limit that leaves one out. -/
theorem search_of_tied_points :
    let now : Moment := .ofNanoseconds 0
    let s := Store.run .empty [
      (now, .addEntity { name := "Task list", entityType := "note" }),
      (now, .addEntity { name := "Tasks", entityType := "Note" }),
      (now, .addEntity { name := "My task", entityType := "Note" }),
      (now, .addEntity { name := "Forest", entityType := "Note", aliases := some "tree" }),
      (now, .addEntity { name := "task", entityType := "Note" })]
    Reachable s ∧
      (s.rankWords "TASK" 3).map (fun m => (m.entity.id, m.score)) = [(3, 15), (5, 15), (2, 10)] ∧
      (s.candidatesFor ["task"]).map Entity.id = [1, 2, 3, 5] := by
  intro now s
  have hs : Reachable s := Reachable.empty.run _
  obtain ⟨⟨ranked, hranked, htake⟩, hcandidates, _⟩ := search_eq_full_ranking hs "TASK"
  have hlist : s.Ranked (queryWords "TASK")
      (([3, 5, 2, 1].filterMap s.entity?).map (Entity.asMatch (queryWords "TASK"))) := by
    constructor <;> decide +kernel
  refine ⟨hs, ?_, ?_⟩
  · rw [htake, ← (hranked _).1 hlist]
    decide +kernel
  · rw [hcandidates]
    decide +kernel

end MemoryGraph
