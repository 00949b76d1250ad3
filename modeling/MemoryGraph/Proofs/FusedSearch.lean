-- SUMMARY: A search by words and by meaning shows the present rows of distinct entities, and is the search for words where nothing can be compared.
import MemoryGraph.Proofs.Fusion
import MemoryGraph.Proofs.Scoring

/-!
# Searching by words and by meaning

A search asks both rankings for twice as many candidates as it may show and fuses
them. Both of them read the table of entities, so that whatever is shown is a row of
it, and a fusion shows no id twice.

The ranking by meaning is empty where the query has no vector, and where no stored
vector has a distance to it. Then the ranking by words stands as it is: its first
entries are the same whether twice as many were asked for or not, because the number
of candidates is at least the limit whenever the limit fits into 64 bits.
-/
namespace MemoryGraph

open Text

/-! ## What can be compared -/

/-- Two vectors can be compared: they have one length, which is not zero, and both have a
direction. -/
structure Embedding.Comparable (a b : Embedding) : Prop where
  length_eq : a.length = b.length
  not_empty : a ≠ []
  left : (norm a).isZero = false
  right : (norm b).isZero = false

theorem Embedding.distance?_eq_none {a b : Embedding} :
    distance? a b = none ↔ ¬ a.Comparable b := by
  constructor
  · rintro hnone ⟨hlength, hempty, hleft, hright⟩
    simp [distance?, hlength, hempty, hleft, hright] at hnone
  · intro hnot
    by_contra hsome
    rw [distance?] at hsome
    split at hsome
    · exact hsome rfl
    · rename_i hshape
      split at hsome
      · exact hsome rfl
      · rename_i hnorms
        simp only [not_or, not_not, List.isEmpty_iff, Bool.not_eq_true] at hshape hnorms
        exact hnot ⟨hshape.1, hshape.2, hnorms.1, hnorms.2⟩

namespace Store

variable {s : Store} {embedder : Embedder} {query : String} {limit : Nat}

/-- Why nothing is found by meaning: there is no embedder, it has no vector for the query, or no
stored vector can be compared with that one. -/
inductive Incomparable (s : Store) (embedder : Embedder) (query : String) : Prop where
  | disabled (h : embedder.isEnabled = false)
  | unanswered (h : embedder.vector? query = none)
  | apart (wanted : Embedding) (h : embedder.vector? query = some wanted)
      (hstored : ∀ e ∈ s.entities, ∀ blob ∈ e.embedding,
        ¬ wanted.Comparable (Embedding.ofBlob blob))

theorem mem_withEmbedding {e : Entity} {v : Embedding} :
    (e, v) ∈ s.withEmbedding ↔
      e ∈ s.entities ∧ ∃ blob ∈ e.embedding, Embedding.ofBlob blob = v := by
  simp [withEmbedding]

/-- The ranking by meaning is empty exactly when it shows nothing at all, when nothing is asked, or
when nothing can be compared. -/
theorem rankMeaning_eq_nil : s.rankMeaning embedder query limit = [] ↔
    limit = 0 ∨ allBlank query = true ∨ s.Incomparable embedder query := by
  rw [← or_assoc, rankMeaning]
  split
  · rename_i hnothing
    exact ⟨fun _ => .inl hnothing, fun _ => rfl⟩
  · rename_i hsomething
    rw [or_iff_right hsomething]
    cases hvector : embedder.vector? query with
    | none => exact ⟨fun _ => .unanswered hvector, fun _ => rfl⟩
    | some wanted =>
      have hlimit : ¬ limit = 0 := fun hzero => hsomething (.inl hzero)
      rw [List.take_eq_nil_iff, or_iff_right hlimit, ← List.length_eq_zero_iff,
        List.length_mergeSort, List.length_eq_zero_iff]
      simp only [List.filterMap_eq_nil_iff, Option.map_eq_none_iff, Embedding.distance?_eq_none,
        Prod.forall, mem_withEmbedding]
      constructor
      · intro hapart
        refine .apart wanted hvector fun e he blob hblob => ?_
        exact hapart e _ ⟨he, blob, hblob, rfl⟩
      · rintro (hdisabled | hunanswered | ⟨other, hother, hstored⟩) e v ⟨he, blob, hblob, rfl⟩
        · cases embedder with
          | disabled => cases hvector
          | answering answer => cases hdisabled
        · rw [hvector] at hunanswered
          cases hunanswered
        · rw [hvector] at hother
          cases hother
          exact hstored e he blob hblob

/-! ## What is shown -/

theorem mem_of_rankMeaning {m : MeaningMatch} (h : m ∈ s.rankMeaning embedder query limit) :
    m.entity ∈ s.entities := by
  rw [rankMeaning] at h
  split at h
  · cases h
  · split at h
    · cases h
    · have hfound := List.mem_mergeSort.1 (List.mem_of_mem_take h)
      obtain ⟨⟨e, v⟩, hstored, hdistance⟩ := List.mem_filterMap.1 hfound
      obtain ⟨distance, _, rfl⟩ := Option.map_eq_some_iff.1 hdistance
      exact (mem_withEmbedding.1 hstored).1

theorem mem_of_rankWords {m : WordMatch} (h : m ∈ s.rankWords query limit) :
    m.entity ∈ s.entities := by
  rw [rankWords_eq] at h
  obtain ⟨e, he, rfl⟩ := List.mem_map.1 h
  exact (mem_ranking.1 (List.mem_of_mem_take he)).1

theorem nodup_ids_rankWords (hk : s.Keyed) (query : String) (limit : Nat) :
    ((s.rankWords query limit).map (·.entity.id)).Nodup := by
  have hids : ((s.ranking (queryWords query)).map Entity.id).Nodup :=
    ((List.mergeSort_perm _ _).map _).nodup_iff.2 (hk.entities.filter _).nodup_ids
  rw [rankWords_eq, List.map_map]
  exact hids.sublist ((List.take_sublist _ _).map _)

theorem rankWords_of_allBlank (h : allBlank query = true) : s.rankWords query limit = [] := by
  have hnone : queryWords query = [] := by
    rw [queryWords, words_eq, wordChars_eq_nil.2 h]
    rfl
  rw [rankWords, hnone]
  rfl

/-- The first results of a search for words do not depend on how many are asked for. -/
theorem take_rankWords {larger : Nat} (h : limit ≤ larger) :
    (s.rankWords query larger).take limit = s.rankWords query limit := by
  rw [rankWords_eq, rankWords_eq, ← List.map_take, List.take_take, Nat.min_eq_left h]

end Store

/-- Candidates are enough for the limit, as long as it fits into 64 bits. -/
theorem le_candidateCount {limit : Nat} (h : limit ≤ 2 ^ 64 - 1) :
    limit ≤ candidateCount limit := by
  have hgreatest : IntegerRange.unsigned64.greatest.toNat = 2 ^ 64 - 1 := rfl
  rw [candidateCount, hgreatest]
  omega

section

variable {α : Type} [RankArithmetic α]

/-- A result of a search for words, with its score in the arithmetic of a fusion. -/
def WordMatch.widened (m : WordMatch) : Ranked α where
  entity := m.entity
  score := RankArithmetic.ofNat m.score
  fields := m.fields

/-- A result of a search: so many entities at most, each of them once and as it stands in the
store. -/
structure ShowsPresent (s : Store) (limit : Nat) (found : List (Ranked α)) : Prop where
  length_le : found.length ≤ limit
  nodup : (found.map (·.entity.id)).Nodup
  present : ∀ m ∈ found, s.entity? m.entity.id = some m.entity

omit [RankArithmetic α] in
/-- A result whose entries are rows of the store under different ids. -/
theorem ShowsPresent.of_rows {s : Store} (hk : s.Keyed) {limit : Nat}
    {found : List (Ranked α)} (hlength : found.length ≤ limit)
    (hnodup : (found.map (·.entity.id)).Nodup) (hrows : ∀ m ∈ found, m.entity ∈ s.entities) :
    ShowsPresent s limit found :=
  ⟨hlength, hnodup, fun m hm => hk.entity?_eq_some.2 ⟨hrows m hm, rfl⟩⟩

theorem rank_showsPresent {s : Store} (hk : s.Keyed) (embedder : Embedder) (query : String)
    (limit : Nat) : ShowsPresent s limit (s.rank (α := α) embedder query limit) := by
  rw [Store.rank]
  split
  · refine .of_rows hk ?_ ?_ ?_
    · rw [List.length_map]
      exact List.length_take_le _ _
    · rw [List.map_map]
      exact (Store.nodup_ids_rankWords hk query _).sublist ((List.take_sublist _ _).map _)
    · intro m hm
      obtain ⟨n, hn, rfl⟩ := List.mem_map.1 hm
      exact Store.mem_of_rankWords (List.mem_of_mem_take hn)
  · refine .of_rows hk ?_ (nodup_fuseRankings _ _ _) ?_
    · rw [length_fuseRankings]
      exact Nat.min_le_left _ _
    · intro m hm
      rcases List.mem_append.1 (entity_of_mem_fuseRankings hm) with hwords | hmeaning
      · obtain ⟨n, hn, hentity⟩ := List.mem_map.1 hwords
        exact hentity ▸ Store.mem_of_rankWords hn
      · obtain ⟨n, hn, hentity⟩ := List.mem_map.1 hmeaning
        exact hentity ▸ Store.mem_of_rankMeaning hn

/-- With a vector to compare with, or where nothing is shown at all, both rankings are fused. -/
theorem rank_eq_fuseRankings {s : Store} {embedder : Embedder} {query : String}
    (h : ¬ s.Incomparable embedder query) (limit : Nat) :
    s.rank (α := α) embedder query limit =
      fuseRankings (s.rankWords query (candidateCount limit))
        (s.rankMeaning embedder query (candidateCount limit)) limit := by
  rw [Store.rank]
  split
  · rename_i hnone
    rw [hnone]
    rcases Store.rankMeaning_eq_nil.1 hnone with hzero | hblank | hnothing
    · have hlimit : limit = 0 := by
        have hgreatest : IntegerRange.unsigned64.greatest.toNat = 2 ^ 64 - 1 := rfl
        rw [candidateCount, hgreatest] at hzero
        omega
      rw [hlimit]
      rfl
    · rw [Store.rankWords_of_allBlank hblank]
      simp [fuseRankings, creditWords, creditMeaning]
    · exact absurd hnothing h
  · rfl

/-- A search by words and by meaning shows distinct entities as they stand in the store, and no more
of them than asked for. Where nothing can be compared by meaning, it is the search for words, its
scores widened, and else the fusion of both rankings. -/
theorem search_shows_present {s : Store} (h : Reachable s) (embedder : Embedder) (query : String)
    (limit : Nat) :
    ShowsPresent s limit (s.rank (α := α) embedder query limit) ∧
    (limit ≤ 2 ^ 64 - 1 → s.Incomparable embedder query →
      s.rank (α := α) embedder query limit = (s.rankWords query limit).map WordMatch.widened) ∧
    (¬ s.Incomparable embedder query →
      s.rank (α := α) embedder query limit =
        fuseRankings (s.rankWords query (candidateCount limit))
          (s.rankMeaning embedder query (candidateCount limit)) limit) := by
  refine ⟨rank_showsPresent h.sound.keyed embedder query limit, ?_, ?_⟩
  · intro hlimit hnothing
    have hnone : s.rankMeaning embedder query (candidateCount limit) = [] :=
      Store.rankMeaning_eq_nil.2 (.inr (.inr hnothing))
    rw [Store.rank, hnone, ← Store.take_rankWords (le_candidateCount hlimit)]
    rfl
  · intro hsomething
    exact rank_eq_fuseRankings hsomething limit

end

/-- One vector of another length, one without a direction, and the greatest limit, which cannot be
doubled. -/
theorem search_of_other_length :
    let now : Moment := .ofNanoseconds 0
    let s := Store.run .empty [
      (now, .addEntity { name := "Gadget Pro", entityType := "Tool" }),
      (now, .addEntity { name := "Widget", entityType := "Gadget" }),
      (now, .setEmbedding 1 [.one]),
      (now, .setEmbedding 2 [.zero, .zero])]
    let embedder : Embedder := .answering fun _ => some [.one, .zero]
    let found : List (Ranked Float) := s.rank embedder "gadget" (2 ^ 64 - 1)
    Reachable s ∧ s.Incomparable embedder "gadget" ∧ ShowsPresent s (2 ^ 64 - 1) found ∧
      found.map (fun m => (m.entity.id, m.score, m.fields)) =
        [(2, Float.ofNat 22, [.entityType]), (1, Float.ofNat 15, [.name])] := by
  intro now s embedder found
  have hs : Reachable s := Reachable.empty.run _
  have hstored : ∀ e ∈ s.entities, ∀ blob ∈ e.embedding,
      Embedding.distance? [.one, .zero] (Embedding.ofBlob blob) = none := by
    decide +kernel
  have hnothing : s.Incomparable embedder "gadget" := by
    refine .apart [.one, .zero] rfl fun e he blob hblob => ?_
    exact Embedding.distance?_eq_none.1 (hstored e he blob hblob)
  have hlist : s.Ranked (queryWords "gadget")
      (([2, 1].filterMap s.entity?).map (Entity.asMatch (queryWords "gadget"))) := by
    constructor <;> decide +kernel
  have hwords : (s.rankWords "gadget" (2 ^ 64 - 1)).map
      (fun m => (m.entity.id, m.score, m.fields)) = [(2, 22, [.entityType]), (1, 15, [.name])] := by
    rw [Store.rankWords_of_length_le (by decide +kernel),
      (s.ranked_ranking _ hs.sound.keyed).unique hlist]
    decide +kernel
  obtain ⟨hpresent, hsame, _⟩ := search_shows_present (α := Float) hs embedder "gadget" (2 ^ 64 - 1)
  refine ⟨hs, hnothing, hpresent, ?_⟩
  have hmap := congrArg (List.map fun m => (m.1, Float.ofNat m.2.1, m.2.2)) hwords
  rw [List.map_map] at hmap
  rw [show found = _ from hsame le_rfl hnothing, List.map_map]
  exact hmap

end MemoryGraph
