-- SUMMARY: The score of an entity grows with further words and does not know their order, and every word of an entity finds it.
import MemoryGraph.Proofs.FullRanking

/-!
# The score of an entity

A score is a sum over words, with something on top for every word after the first
one that stands in the entity. Words added to a query add their own points, which
are five at least where the word stands in a field and none where it stands nowhere,
and they take nothing from the others. The order of the words has no say in a sum,
and none in which fields hold one of them.

A word of the name, the type or the aliases stands, lowercased on its own, in the
lowercased text. It therefore gives points, and a search with room for all entities
shows the entity that it came from.
-/
namespace MemoryGraph

open Text

namespace Entity

variable {e : Entity} {tokens further all : List String}

/-! ## Further words -/

/-- What a search says of an entity: its score and the fields that matched, none of either where
it does not score. -/
def shown (e : Entity) (tokens : List String) : Nat × List SearchField :=
  (e.score? tokens).getD (0, [])

/-- Where an entity does not score, no field matches. -/
theorem shown_eq (e : Entity) (tokens : List String) :
    e.shown tokens = (e.points tokens, e.matchedFields tokens) := by
  rw [shown, score?_eq]
  split
  · rfl
  · rename_i hpoints
    have hnone : e.matchedFields tokens = [] := by
      rw [List.eq_nil_iff_forall_not_mem]
      intro field hfield
      obtain ⟨hsearched, word, hword, hmatches⟩ :=
        mem_matchedFields.1 (List.contains_iff_mem.2 hfield)
      exact hpoints (one_le_points_of_matchesIn hword hsearched hmatches)
    have hzero : e.points tokens = 0 := by omega
    rw [hnone, hzero]
    rfl

/-- Twice the score: the points of the words, and two points for each after the first that stands
in the entity. -/
theorem halfScore_eq (e : Entity) (tokens : List String) :
    e.halfScore tokens = sumOf e.halfPoints tokens + 4 * (tokens.countP e.matchesWord - 1) := by
  rw [halfScore, List.countP_eq_length_filter]

theorem ten_mul_countP_le (e : Entity) (tokens : List String) :
    10 * tokens.countP e.matchesWord ≤ sumOf e.halfPoints tokens := by
  induction tokens with
  | nil => simp
  | cons word rest ih =>
    rw [sumOf_cons, List.countP_cons]
    cases hmatches : e.matchesWord word with
    | false => simpa using ih.trans (Nat.le_add_left _ _)
    | true =>
      obtain ⟨field, hfield, hstands⟩ := List.any_eq_true.1 hmatches
      have hword : 10 ≤ e.halfPoints word := ten_le_halfPoints hfield hstands
      simp only [if_true]
      omega

theorem halfScore_append (e : Entity) (tokens further : List String) :
    e.halfScore tokens + 10 * further.countP e.matchesWord ≤ e.halfScore (tokens ++ further) := by
  have hfurther := e.ten_mul_countP_le further
  rw [halfScore_eq, halfScore_eq, sumOf_append, List.countP_append]
  omega

theorem points_append (e : Entity) (tokens further : List String) :
    e.points tokens + 5 * further.countP e.matchesWord ≤ e.points (tokens ++ further) := by
  have hhalves := e.halfScore_append tokens further
  unfold points
  omega

theorem mem_matchedFields_append {field : SearchField} :
    field ∈ e.matchedFields (tokens ++ further) ↔
      field ∈ e.matchedFields tokens ∨ field ∈ e.matchedFields further := by
  simp [matchedFields, and_or_left]

/-- Words that stand nowhere in an entity change nothing. -/
theorem score?_append_of_unmatched (h : ∀ word ∈ further, e.matchesWord word = false) :
    e.score? (tokens ++ further) = e.score? tokens := by
  have hscore : e.halfScore (tokens ++ further) = e.halfScore tokens := by
    have hcount : further.countP e.matchesWord = 0 := by
      rw [List.countP_eq_zero]
      intro word hword
      simp [h word hword]
    rw [halfScore_eq, halfScore_eq, sumOf_append, sumOf_halfPoints_eq_zero h, List.countP_append,
      hcount, Nat.add_zero, Nat.add_zero]
  have hfields : e.matchedFields (tokens ++ further) = e.matchedFields tokens := by
    refine List.filter_congr fun field hfield => ?_
    have hnone : (further.any fun word => e.matchesIn word field) = false := by
      rw [List.any_eq_false]
      intro word hword
      simp [matchesWord_eq_false.1 (h word hword) field hfield]
    rw [List.any_append, hnone, Bool.or_false]
  rw [score?, score?, hscore, hfields]

/-! ## Rearranged words -/

/-- The order of the words has no say in what they score. -/
theorem score?_perm (h : tokens.Perm all) (e : Entity) : e.score? tokens = e.score? all := by
  have hscore : e.halfScore tokens = e.halfScore all := by
    rw [halfScore_eq, halfScore_eq, sumOf_eq_sum, sumOf_eq_sum, (h.map _).sum_eq, h.countP_eq]
  have hfields : e.matchedFields tokens = e.matchedFields all := by
    refine List.filter_congr fun field _ => ?_
    exact h.any_eq
  rw [score?, score?, hscore, hfields]

theorem shown_perm (h : tokens.Perm all) (e : Entity) : e.shown tokens = e.shown all := by
  rw [shown, shown, score?_perm h]

end Entity

/-- Further words, in whatever order they come with the others, never lower a score: each of them
that stands in the entity adds five points or more. The matched fields are those of all the words.
Words that stand nowhere change nothing, so that words which merely change places do not either. -/
theorem score_of_further_words (e : Entity) {tokens further all : List String}
    (h : all.Perm (tokens ++ further)) :
    (e.shown tokens).1 + 5 * further.countP e.matchesWord ≤ (e.shown all).1 ∧
    (∀ field, field ∈ (e.shown all).2 ↔
      field ∈ (e.shown tokens).2 ∨ field ∈ (e.shown further).2) ∧
    ((∀ word ∈ further, e.matchesWord word = false) → e.score? all = e.score? tokens) := by
  rw [Entity.shown_perm h, Entity.score?_perm h]
  simp only [Entity.shown_eq]
  refine ⟨e.points_append tokens further, ?_, ?_⟩
  · intro field
    exact Entity.mem_matchedFields_append
  · exact Entity.score?_append_of_unmatched

/-- A word that stands in the aliases only, once more and before the others, beside one that stands
nowhere. -/
theorem score_of_repeated_word :
    let e : Entity :=
      { id := 1, name := "Payment Service", entityType := "Service",
        aliases := some "billing, invoices" }
    let tokens := ["pay", "service"]
    let further := ["billing", "zzz", "billing"]
    let all := ["billing", "service", "zzz", "billing", "pay"]
    all.Perm (tokens ++ further) ∧ e.shown tokens = (49, [.entityType, .name]) ∧
      59 ≤ (e.shown all).1 ∧ .aliases ∈ (e.shown all).2 ∧
      e.score? (tokens ++ ["zzz"]) = some (49, [.entityType, .name]) := by
  intro e tokens further all
  have hperm : all.Perm (tokens ++ further) := by decide
  have hshown : e.shown tokens = (49, [.entityType, .name]) := by decide +kernel
  obtain ⟨hpoints, hfields, _⟩ := score_of_further_words e hperm
  have hunmatched : ∀ word ∈ ["zzz"], e.matchesWord word = false := by decide +kernel
  obtain ⟨_, _, hsame⟩ := score_of_further_words e (List.Perm.refl (tokens ++ ["zzz"]))
  refine ⟨hperm, hshown, ?_, ?_, ?_⟩
  · have hcount : further.countP e.matchesWord = 2 := by decide +kernel
    rwa [hshown, hcount] at hpoints
  · exact (hfields .aliases).2 (.inr (by decide +kernel))
  · rw [hsame hunmatched]
    decide +kernel

/-! ## Searching for a word -/

/-- A word of the text of a field stands in this field. -/
theorem Entity.matchesIn_of_mem_words {e : Entity} {field : SearchField} {word : String}
    (h : word ∈ words (field.text e)) : e.matchesIn (lower word) field = true := by
  refine Bool.and_eq_true_iff.2 ⟨?_, contains_lower_of_mem_words h⟩
  by_contra hempty
  have htext : field.text e = "" := lower_eq_empty.1 (by simpa using hempty)
  rw [htext] at h
  cases h

theorem SearchField.searched_of_mem_words {e : Entity} {field : SearchField} {word : String}
    (h : word ∈ words (field.text e)) : field ∈ SearchField.searched := by
  cases field with
  | entityType => decide
  | name => decide
  | aliases => decide
  | semantic => cases h

namespace Store

variable {s : Store}

/-- A search with room for all entities shows whatever scores. -/
theorem rankWords_of_length_le {query : String} {limit : Nat} (h : s.entities.length ≤ limit) :
    s.rankWords query limit =
      (s.ranking (queryWords query)).map (Entity.asMatch (queryWords query)) := by
  have hlength : (s.ranking (queryWords query)).length ≤ s.entities.length := by
    rw [ranking, List.length_mergeSort]
    exact List.length_filter_le _ _
  rw [rankWords_eq, List.take_of_length_le (hlength.trans h)]

/-- What scores stands in the ranking once. -/
theorem filter_ranking (hk : s.Keyed) {tokens : List String} {e : Entity}
    (he : e ∈ s.ranking tokens) :
    (s.ranking tokens).filter (fun f => f.id = e.id) = [e] := by
  have hsame : ∀ f ∈ s.ranking tokens, f.id = e.id → f = e := by
    intro f hf hid
    exact hk.entities.unique (mem_ranking.1 hf).1 (mem_ranking.1 he).1 hid
  have hfilter : (s.ranking tokens).filter (fun f => f.id = e.id) =
      (s.ranking tokens).filter (fun f => f = e) := by
    refine List.filter_congr fun f hf => ?_
    rw [decide_eq_decide]
    exact ⟨hsame f hf, fun heq => congrArg Entity.id heq⟩
  rw [hfilter, List.filter_eq, List.count_eq_one_of_mem (nodup_ranking hk) he]
  rfl

end Store

/-- An entity is found by every word of its name, its type and its aliases: a search for words with
room for all entities shows it, once, with the field of the word among the matched ones. The word
may be asked for in any spelling that lowercasing, word by word, takes for the same. -/
theorem found_by_each_word {s : Store} (h : Reachable s) {e : Entity} (he : e ∈ s.entities)
    {field : SearchField} {query asked word : String} (hasked : asked ∈ words query)
    (hword : word ∈ words (field.text e)) (hsame : lower asked = lower word) {limit : Nat}
    (hlimit : s.entities.length ≤ limit) :
    ∃ m, (s.rankWords query limit).filter (fun m => m.entity.id = e.id) = [m] ∧
      m.entity = e ∧ field ∈ m.fields := by
  have hsearched := SearchField.searched_of_mem_words hword
  have hmatches : e.matchesIn (lower word) field = true := Entity.matchesIn_of_mem_words hword
  have htoken : lower word ∈ queryWords query :=
    mem_distinct.2 (hsame ▸ List.mem_map_of_mem hasked)
  have hranked : e ∈ s.ranking (queryWords query) :=
    Store.mem_ranking.2 ⟨he, Entity.one_le_points_of_matchesIn htoken hsearched hmatches⟩
  refine ⟨e.asMatch (queryWords query), ?_, rfl, ?_⟩
  · rw [Store.rankWords_of_length_le hlimit, List.filter_map]
    exact congrArg (List.map _) (Store.filter_ranking h.sound.keyed hranked)
  · exact List.contains_iff_mem.1
      (Entity.mem_matchedFields.2 ⟨hsearched, lower word, htoken, hmatches⟩)

/-- A capital sigma at the end of a word is final before a blank as well, a dotted capital becomes
two characters, and a separator of aliases is a part of the word. -/
theorem found_by_last_sigma :
    let now : Moment := .ofNanoseconds 0
    let s := Store.run .empty [
      (now, .addEntity { name := "ΟΔΟΣ ΣΟΦΙΑΣ", entityType := "Street" }),
      (now, .addEntity { name := "Ferry", entityType := "Line", aliases := some "ΠΛΟΙΟ İzmir;" })]
    Reachable s ∧ s.entities.length = 2 ∧
      (∃ m ∈ s.rankWords "to Οδος" 2, m.entity.id = 1 ∧ .name ∈ m.fields) ∧
      ∃ m ∈ s.rankWords "İZMir; by sea" 2, m.entity.id = 2 ∧ .aliases ∈ m.fields := by
  intro now s
  have hs : Reachable s := Reachable.empty.run _
  have hlength : s.entities.length = 2 := by decide +kernel
  have hstreet : "Οδος" ∈ words "to Οδος" := by decide +kernel
  have hferry : "İZMir;" ∈ words "İZMir; by sea" := by decide +kernel
  obtain ⟨e, he, hid, hname⟩ :
      ∃ e ∈ s.entities, e.id = 1 ∧ "ΟΔΟΣ" ∈ words (SearchField.name.text e) := by
    decide +kernel
  obtain ⟨f, hf, hid', haliases⟩ :
      ∃ f ∈ s.entities, f.id = 2 ∧ "İzmir;" ∈ words (SearchField.aliases.text f) := by
    decide +kernel
  obtain ⟨m, hm, hme, hfield⟩ :=
    found_by_each_word hs he hstreet hname (by decide +kernel) hlength.le
  obtain ⟨n, hn, hnf, hfield'⟩ :=
    found_by_each_word hs hf hferry haliases (by decide +kernel) hlength.le
  refine ⟨hs, hlength, ⟨m, ?_, ?_, hfield⟩, ⟨n, ?_, ?_, hfield'⟩⟩
  · exact (List.mem_filter.1 (hm ▸ List.mem_singleton_self m)).1
  · rw [hme, hid]
  · exact (List.mem_filter.1 (hn ▸ List.mem_singleton_self n)).1
  · rw [hnf, hid']

end MemoryGraph
