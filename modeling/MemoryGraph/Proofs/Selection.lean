-- SUMMARY: Which entity a root is taken for: the best of the first ten that its words find, and what a high grade rests on.
import MemoryGraph.Proofs.Compared
import MemoryGraph.Proofs.Scoring

/-!
# The entity selected for a root

A root is looked up by the words of its name and its type together. Of the first
ten entities found, the one with the most points is graded, and of several with
as many the first. An entity of exactly the name and the type has the points and
the fields of a high grade, so that it is selected unless the ranking puts
another entity before it.
-/
namespace MemoryGraph

open Text

/-! ## The words of a root -/

/-- The words that a root is looked up by. -/
def TreeNode.lookupWords (node : TreeNode) : List String :=
  queryWords (node.name ++ " " ++ node.entityType)

theorem TreeNode.mem_lookupWords {node : TreeNode} {token : String} :
    token ∈ node.lookupWords ↔
      ∃ word, (word ∈ words node.name ∨ word ∈ words node.entityType) ∧ lower word = token := by
  simp only [lookupWords, queryWords, mem_distinct, words_join, List.mem_map, List.mem_append]

/-! ## The best match -/

theorem bestMatch?_eq_none {found : List WordMatch} : bestMatch? found = none ↔ found = [] := by
  cases found with
  | nil => simp [bestMatch?]
  | cons m rest =>
    rw [bestMatch?]
    split
    · simp
    · split <;> simp

namespace Entity

variable {tokens : List String} {e f : Entity} {es : List Entity}

/-- No entity of a list has more points, and none with as many ranks before it. -/
structure Best (tokens : List String) (es : List Entity) (e : Entity) : Prop where
  mem : e ∈ es
  most : ∀ f ∈ es, f.points tokens ≤ e.points tokens
  first : ∀ f ∈ es, f.points tokens = e.points tokens → ¬ f.RanksBefore tokens e

/-- The best match of a ranking is that of its best entity. -/
theorem best_of_bestMatch? (h : es.Pairwise (RanksBefore tokens)) {m : WordMatch}
    (hm : bestMatch? (es.map (asMatch tokens)) = some m) :
    ∃ e, Best tokens es e ∧ m = e.asMatch tokens := by
  induction es generalizing m with
  | nil => cases hm
  | cons c es ih =>
    rw [List.pairwise_cons] at h
    obtain ⟨hbefore, hrest⟩ := h
    rw [List.map_cons, bestMatch?] at hm
    split at hm
    · rename_i hnone
      cases hm
      obtain rfl : es = [] := List.map_eq_nil_iff.1 (bestMatch?_eq_none.1 hnone)
      refine ⟨c, ⟨List.mem_singleton_self c, ?_, ?_⟩, rfl⟩
      · intro f hf
        rw [List.mem_singleton.1 hf]
      · intro f hf _
        rw [List.mem_singleton.1 hf]
        exact RanksBefore.irrefl tokens c
    · rename_i other hother
      obtain ⟨e, he, rfl⟩ := ih hrest hother
      split at hm
      · rename_i hmore
        cases hm
        refine ⟨e, ⟨List.mem_cons_of_mem c he.mem, ?_, ?_⟩, rfl⟩
        · intro f hf
          rcases List.mem_cons.1 hf with rfl | hf
          · exact hmore.le
          · exact he.most f hf
        · intro f hf hsame
          rcases List.mem_cons.1 hf with rfl | hf
          · exact absurd hsame hmore.ne
          · exact he.first f hf hsame
      · rename_i hless
        cases hm
        have hle : e.points tokens ≤ c.points tokens := Nat.le_of_not_lt hless
        refine ⟨c, ⟨List.mem_cons_self, ?_, ?_⟩, rfl⟩
        · intro f hf
          rcases List.mem_cons.1 hf with rfl | hf
          · exact le_rfl
          · exact (he.most f hf).trans hle
        · intro f hf _
          rcases List.mem_cons.1 hf with rfl | hf
          · exact RanksBefore.irrefl tokens f
          · exact (hbefore f hf).asymm

/-- A ranking has one best entity. -/
theorem Best.unique (h : es.Pairwise (RanksBefore tokens)) (he : Best tokens es e)
    (hf : Best tokens es f) : e = f := by
  have hsame : e.points tokens = f.points tokens :=
    Nat.le_antisymm (hf.most e he.mem) (he.most f hf.mem)
  rcases eq_or_rel_of_pairwise h he.mem hf.mem with hef | hbefore | hbefore
  · exact hef
  · exact absurd hbefore (hf.first e he.mem hsame)
  · exact absurd hbefore (he.first f hf.mem hsame.symm)

theorem bestMatch?_eq_some (h : es.Pairwise (RanksBefore tokens)) :
    bestMatch? (es.map (asMatch tokens)) = some (e.asMatch tokens) ↔ Best tokens es e := by
  constructor
  · intro hm
    obtain ⟨f, hf, hsame⟩ := best_of_bestMatch? h hm
    rwa [asMatch_inj.1 hsame]
  · intro he
    cases hm : bestMatch? (es.map (asMatch tokens)) with
    | none =>
      have hmem := he.mem
      rw [List.map_eq_nil_iff.1 (bestMatch?_eq_none.1 hm)] at hmem
      cases hmem
    | some m =>
      obtain ⟨f, hf, rfl⟩ := best_of_bestMatch? h hm
      rw [he.unique h hf]

end Entity

/-! ## The grade -/

theorem WordMatch.grade_eq_high {m : WordMatch} {wantedType : String} :
    m.grade wantedType = .high ↔
      20 ≤ m.score ∧ (m.fields.contains .name ∨ m.fields.contains .aliases) ∧
        m.fields.contains .entityType ∧ lower m.entity.entityType = lower wantedType := by
  unfold grade
  split
  · simp_all
  · split <;> simp_all

theorem Entity.grade_eq_high {e : Entity} {tokens : List String} {wantedType : String} :
    (e.asMatch tokens).grade wantedType = .high ↔
      20 ≤ e.points tokens ∧
        ((e.matchedFields tokens).contains .name = true ∨
          (e.matchedFields tokens).contains .aliases = true) ∧
        (e.matchedFields tokens).contains .entityType = true ∧
        lower e.entityType = lower wantedType := by
  simp only [WordMatch.grade_eq_high, asMatch_entity, asMatch_score, asMatch_fields]

namespace Store

variable {s : Store} {node : TreeNode} {path : NodePath}

/-- A root is of high grade when its best match is, and the entity of this match is selected. -/
theorem compareRoot_high_iff {id : Id} :
    (s.compareRoot node path).confidence = .high ∧ (s.compareRoot node path).selected = some id ↔
      ∃ m, bestMatch? (((s.ranking node.lookupWords).take candidateLimit).map
          (Entity.asMatch node.lookupWords)) = some m ∧
        m.grade node.entityType = .high ∧ m.entity.id = id := by
  simp only [compareRoot, rankWords_eq, TreeNode.lookupWords]
  cases bestMatch? _ with
  | none => simp
  | some m => by_cases hgrade : m.grade node.entityType = .high <;> simp [hgrade]

/-- A root of high grade has its entity selected. -/
theorem exists_selected (h : (s.compareRoot node path).confidence = .high) :
    ∃ id, (s.compareRoot node path).selected = some id := by
  simp only [compareRoot] at h ⊢
  cases hm : bestMatch? (s.rankWords (node.name ++ " " ++ node.entityType) candidateLimit) with
  | none => simp [hm] at h
  | some m =>
    rw [hm] at h
    exact ⟨m.entity.id, by simp [h]⟩

/-- An entity is the best of the first ones that words find: fewer than the limit rank before it,
and none of those of which this is true has more points, or as many and ranks before it. -/
structure Foremost (s : Store) (tokens : List String) (limit : Nat) (e : Entity) : Prop where
  shown : s.ahead tokens e < limit
  most : ∀ f ∈ s.entities, s.ahead tokens f < limit → f.points tokens ≤ e.points tokens
  first : ∀ f ∈ s.entities, s.ahead tokens f < limit → f.points tokens = e.points tokens →
    ¬ f.RanksBefore tokens e

instance (s : Store) (tokens : List String) (limit : Nat) (e : Entity) :
    Decidable (s.Foremost tokens limit e) :=
  decidable_of_iff
    (s.ahead tokens e < limit ∧
      (∀ f ∈ s.entities, s.ahead tokens f < limit → f.points tokens ≤ e.points tokens) ∧
      ∀ f ∈ s.entities, s.ahead tokens f < limit → f.points tokens = e.points tokens →
        ¬ f.RanksBefore tokens e)
    ⟨fun h => ⟨h.1, h.2.1, h.2.2⟩, fun h => ⟨h.shown, h.most, h.first⟩⟩

theorem foremost_iff_best {tokens : List String} {limit : Nat} {e : Entity} (hk : s.Keyed)
    (he : e ∈ s.entities) (hpoints : 1 ≤ e.points tokens) :
    s.Foremost tokens limit e ↔ Entity.Best tokens ((s.ranking tokens).take limit) e := by
  constructor
  · intro h
    constructor
    · exact (mem_take_ranking hk).2 ⟨he, hpoints, h.shown⟩
    · intro f hf
      obtain ⟨hmem, _, hshown⟩ := (mem_take_ranking hk).1 hf
      exact h.most f hmem hshown
    · intro f hf
      obtain ⟨hmem, _, hshown⟩ := (mem_take_ranking hk).1 hf
      exact h.first f hmem hshown
  · intro h
    constructor
    · exact ((mem_take_ranking hk).1 h.mem).2.2
    · intro f hf hshown
      by_cases hfound : 1 ≤ f.points tokens
      · exact h.most f ((mem_take_ranking hk).2 ⟨hf, hfound, hshown⟩)
      · exact (Nat.lt_of_not_le hfound).le.trans hpoints
    · intro f hf hshown hsame
      exact h.first f ((mem_take_ranking hk).2 ⟨hf, hpoints.trans_eq hsame.symm, hshown⟩) hsame

/-- A root is of high grade with an entity selected when this is the foremost one and the points and
fields of the entity suffice. -/
theorem selected_iff {e : Entity} (hk : s.Keyed) (he : e ∈ s.entities)
    (hpoints : 1 ≤ e.points node.lookupWords) :
    (s.compareRoot node path).confidence = .high ∧ (s.compareRoot node path).selected = some e.id ↔
      s.Foremost node.lookupWords candidateLimit e ∧
        (e.asMatch node.lookupWords).grade node.entityType = .high := by
  rw [compareRoot_high_iff, foremost_iff_best hk he hpoints,
    ← Entity.bestMatch?_eq_some (pairwise_take_ranking hk)]
  constructor
  · rintro ⟨m, hm, hgrade, hid⟩
    obtain ⟨f, hf, rfl⟩ := Entity.best_of_bestMatch? (pairwise_take_ranking hk) hm
    have hmem := (mem_ranking.1 (List.mem_of_mem_take hf.mem)).1
    obtain rfl := hk.entities.unique he hmem hid.symm
    exact ⟨hm, hgrade⟩
  · rintro ⟨hm, hgrade⟩
    exact ⟨_, hm, hgrade, rfl⟩

/-- The entity selected for a root of high grade is one of the graph and has that grade. -/
theorem exists_of_high (hk : s.Keyed) (h : (s.compareRoot node path).confidence = .high) :
    ∃ e ∈ s.entities, (s.compareRoot node path).selected = some e.id ∧
      (e.asMatch node.lookupWords).grade node.entityType = .high := by
  obtain ⟨id, hid⟩ := exists_selected h
  obtain ⟨m, hm, hgrade, rfl⟩ := compareRoot_high_iff.1 ⟨h, hid⟩
  obtain ⟨e, he, rfl⟩ := Entity.best_of_bestMatch? (pairwise_take_ranking hk) hm
  exact ⟨e, (mem_ranking.1 (List.mem_of_mem_take he.mem)).1, hid, hgrade⟩

end Store

/-! ## Exactly matching roots -/

/-- An entity of the name and the type of a root has points and fields enough for a high grade, which
then is a matter of capitals and of blanks at the ends of the type. -/
theorem Entity.grade_of_exact {e : Entity} {node : TreeNode} (hs : e.Settled)
    (hname : trim node.name = e.name) (htype : trim node.entityType = e.entityType) :
    25 ≤ e.points node.lookupWords ∧
      ((e.asMatch node.lookupWords).grade node.entityType = .high ↔
        lower e.entityType = lower node.entityType) := by
  obtain ⟨word, hword⟩ := List.exists_mem_of_ne_nil _ (words_ne_nil (Field.not_blank hs.name.passes))
  obtain ⟨other, hother⟩ :=
    List.exists_mem_of_ne_nil _ (words_ne_nil (Field.not_blank hs.entityType.passes))
  have hnamed : e.matchesIn (lower word) .name = true := matchesIn_of_mem_words hword
  have htyped : e.matchesIn (lower other) .entityType = true := matchesIn_of_mem_words hother
  rw [← hname, words_trim] at hword
  rw [← htype, words_trim] at hother
  have hasked : lower word ∈ node.lookupWords := TreeNode.mem_lookupWords.2 ⟨word, .inl hword, rfl⟩
  have hasked' : lower other ∈ node.lookupWords :=
    TreeNode.mem_lookupWords.2 ⟨other, .inr hother, rfl⟩
  have hpoints : 25 ≤ e.points node.lookupWords :=
    le_points_of_matchesIn hasked' hasked htyped hnamed
  refine ⟨hpoints, grade_eq_high.trans ⟨fun h => h.2.2.2, fun hsame => ?_⟩⟩
  refine ⟨Nat.le_of_add_right_le (k := 5) hpoints, .inl ?_, ?_, hsame⟩
  · exact mem_matchedFields.2 ⟨by decide, _, hasked, hnamed⟩
  · exact mem_matchedFields.2 ⟨by decide, _, hasked', htyped⟩

/-- A root of the name and the type of an entity has one result. It is of high grade with this
entity selected only when the entity is among the first ten that the words of the root find, and
none of these has more points, or as many and ranks before it; and when the type is given as the
entity has it, this is all it takes. -/
theorem selected_iff_foremost {s : Store} (h : Reachable s) {document : TreeDocument} {index : Nat}
    {node : TreeNode} (hnode : document.roots[index]? = some node) {e : Entity}
    (he : e ∈ s.entities) (hname : trim node.name = e.name)
    (htype : trim node.entityType = e.entityType) :
    ∃ r, (s.compareDocument document).results.filter (fun r => r.path = { root := index }) = [r] ∧
      (r.confidence = .high ∧ r.selected = some e.id →
        s.Foremost node.lookupWords candidateLimit e) ∧
      (node.entityType = e.entityType → s.Foremost node.lookupWords candidateLimit e →
        r.confidence = .high ∧ r.selected = some e.id) := by
  obtain ⟨hpoints, hgrade⟩ := Entity.grade_of_exact (h.sound.settled.entities e he) hname htype
  refine ⟨_, Store.filter_results hnode, ?_⟩
  rw [Store.selected_iff h.sound.keyed he (Nat.le_trans (by decide) hpoints), hgrade]
  exact ⟨fun hselected => hselected.1, fun hsame hforemost => ⟨hforemost, congrArg lower hsame.symm⟩⟩

/-- An entity that ranks behind one of another type, and is selected as it has more points. -/
theorem selected_of_second :
    let now : Moment := .ofNanoseconds 0
    let s := Store.run .empty [
      (now, .addEntity { name := "Graphite", entityType := "Note" }),
      (now, .addEntity { name := "Graphs", entityType := "Project" }),
      (now, .addEntity { name := "Graph", entityType := "Project", aliases := some "tree, links" })]
    let node : TreeNode := { name := " Graph ", entityType := "Project" }
    let document : TreeDocument := { roots := [{ name := "Other", entityType := "Note" }, node] }
    ∃ r, (s.compareDocument document).results.filter (fun r => r.path = { root := 1 }) = [r] ∧
      r.confidence = .high ∧ r.selected = some 3 := by
  intro now s node document
  have hthere : ∃ e ∈ s.entities, e.id = 3 ∧ trim node.name = e.name ∧
      trim node.entityType = e.entityType ∧ node.entityType = e.entityType ∧
      s.Foremost node.lookupWords candidateLimit e := by
    decide +kernel
  obtain ⟨e, he, hid, hname, htype, hsame, hforemost⟩ := hthere
  have hnode : document.roots[1]? = some node := rfl
  obtain ⟨r, hr, _, hselected⟩ :=
    selected_iff_foremost (Reachable.empty.run _) hnode he hname htype
  rw [hid] at hselected
  exact ⟨r, hr, hselected hsame hforemost⟩

/-- An entity of exactly the name and the type of a root is passed over for one with more points:
the word for the type stands in the name of the other one too. -/
theorem exact_root_passed_over :
    let now : Moment := .ofNanoseconds 0
    let s := Store.run .empty [
      (now, .addEntity { name := "Alpha", entityType := "Project" }),
      (now, .addEntity { name := "Alpha Project", entityType := "Project" })]
    let node : TreeNode := { name := "Alpha", entityType := "Project" }
    Reachable s ∧
      (∃ e ∈ s.entities, e.id = 1 ∧ trim node.name = e.name ∧ trim node.entityType = e.entityType) ∧
      ∃ r, (s.compareDocument { roots := [node] }).results = [r] ∧
        r.confidence = .high ∧ r.selected = some 2 := by
  intro now s node
  have hthere : ∃ e ∈ s.entities, e.id = 2 ∧ 1 ≤ e.points node.lookupWords ∧
      s.Foremost node.lookupWords candidateLimit e ∧
      (e.asMatch node.lookupWords).grade node.entityType = .high := by
    decide +kernel
  obtain ⟨e, he, hid, hpoints, hforemost⟩ := hthere
  have hs : Reachable s := Reachable.empty.run _
  obtain ⟨hhigh, hselected⟩ := (Store.selected_iff hs.sound.keyed he hpoints).2 hforemost
  rw [hid] at hselected
  exact ⟨hs, by decide +kernel, s.compareRoot node { root := 0 }, rfl, hhigh, hselected⟩

/-! ## What a high grade rests on -/

/-- Whether a word stands, lowercased, in the lowercased name or aliases of an entity. -/
def Entity.IsCalled (e : Entity) (word : String) : Prop :=
  contains (lower e.name) (lower word) = true ∨
    contains (lower (e.aliases.getD "")) (lower word) = true

instance (e : Entity) (word : String) : Decidable (e.IsCalled word) :=
  inferInstanceAs (Decidable (_ ∨ _))

/-- A field that matched holds a word of the name or of the type of the root. -/
theorem Entity.exists_word_of_matched {e : Entity} {node : TreeNode} {field : SearchField}
    (h : (e.matchedFields node.lookupWords).contains field = true) :
    ∃ word, (word ∈ words node.name ∨ word ∈ words node.entityType) ∧
      contains (lower (field.text e)) (lower word) = true := by
  obtain ⟨_, token, htoken, hmatches⟩ := mem_matchedFields.1 h
  obtain ⟨word, hword, rfl⟩ := TreeNode.mem_lookupWords.1 htoken
  exact ⟨word, hword, (Bool.and_eq_true_iff.1 hmatches).2⟩

/-- A name or aliases that matched hold such a word. -/
theorem Entity.exists_isCalled {e : Entity} {node : TreeNode}
    (h : (e.matchedFields node.lookupWords).contains .name = true ∨
      (e.matchedFields node.lookupWords).contains .aliases = true) :
    ∃ word, (word ∈ words node.name ∨ word ∈ words node.entityType) ∧ e.IsCalled word := by
  rcases h with hname | haliases
  · obtain ⟨word, hword, hthere⟩ := exists_word_of_matched hname
    exact ⟨word, hword, .inl hthere⟩
  · obtain ⟨word, hword, hthere⟩ := exists_word_of_matched haliases
    exact ⟨word, hword, .inr hthere⟩

/-- A root of high grade is taken for an entity of its type. A word of its name stands in the name
or the aliases of this entity, unless a word of its type does. -/
theorem called_of_high {s : Store} (h : Reachable s) {document : TreeDocument} {index : Nat}
    {node : TreeNode} (hnode : document.roots[index]? = some node) {r : NodeComparison}
    (hr : r ∈ (s.compareDocument document).results) (hpath : r.path = { root := index })
    (hhigh : r.confidence = .high) :
    ∃ e ∈ s.entities, r.selected = some e.id ∧ lower e.entityType = lower node.entityType ∧
      ((∀ word ∈ words node.entityType, ¬ e.IsCalled word) →
        ∃ word ∈ words node.name, e.IsCalled word) := by
  obtain rfl := Store.eq_compareRoot hnode hr hpath
  obtain ⟨e, he, hselected, hgrade⟩ := Store.exists_of_high h.sound.keyed hhigh
  obtain ⟨_, hfields, _, htype⟩ := Entity.grade_eq_high.1 hgrade
  refine ⟨e, he, hselected, htype, ?_⟩
  intro hnone
  obtain ⟨word, hword | hword, hcalled⟩ := Entity.exists_isCalled hfields
  · exact ⟨word, hword, hcalled⟩
  · exact absurd hcalled (hnone word hword)

/-- A root with a word of its name in an alias, and none of its type anywhere but in the type. -/
theorem called_by_alias :
    let now : Moment := .ofNanoseconds 0
    let s := Store.run .empty [
      (now, .addEntity { name := "Graph", entityType := "Project", aliases := some "forest, links" })]
    let node : TreeNode := { name := "Links", entityType := "PROJECT" }
    let r := s.compareRoot node { root := 0 }
    r ∈ (s.compareDocument { roots := [node] }).results ∧ r.confidence = .high ∧
      ∃ e ∈ s.entities, r.selected = some e.id ∧ ∃ word ∈ words node.name, e.IsCalled word := by
  intro now s node r
  have hs : Reachable s := Reachable.empty.run _
  have hnode : ({ roots := [node] } : TreeDocument).roots[0]? = some node := rfl
  have hr : r ∈ (s.compareDocument { roots := [node] }).results := List.mem_cons_self
  have hthere : ∃ e ∈ s.entities, 1 ≤ e.points node.lookupWords ∧
      s.Foremost node.lookupWords candidateLimit e ∧
      (e.asMatch node.lookupWords).grade node.entityType = .high := by
    decide +kernel
  obtain ⟨f, hf, hpoints, hforemost⟩ := hthere
  have hhigh : r.confidence = .high :=
    ((Store.selected_iff hs.sound.keyed hf hpoints).2 hforemost).1
  have hnone : ∀ e ∈ s.entities, ∀ word ∈ words node.entityType, ¬ e.IsCalled word := by
    decide +kernel
  obtain ⟨e, he, hselected, _, hcalled⟩ := called_of_high hs hnode hr rfl hhigh
  exact ⟨hr, hhigh, e, he, hselected, hcalled (hnone e he)⟩

/-- A root of high grade without a word of its name in the entity selected: the word for its type
stands in the name of the entity. -/
theorem high_by_type_word :
    let now : Moment := .ofNanoseconds 0
    let s := Store.run .empty [
      (now, .addEntity { name := "Project Alpha", entityType := "Project" })]
    let node : TreeNode := { name := "Beta", entityType := "Project" }
    Reachable s ∧
      ∃ r, (s.compareDocument { roots := [node] }).results = [r] ∧ r.confidence = .high ∧
        ∃ e ∈ s.entities, r.selected = some e.id ∧ ∀ word ∈ words node.name, ¬ e.IsCalled word := by
  intro now s node
  have hthere : ∃ e ∈ s.entities, 1 ≤ e.points node.lookupWords ∧
      (∀ word ∈ words node.name, ¬ e.IsCalled word) ∧
      s.Foremost node.lookupWords candidateLimit e ∧
      (e.asMatch node.lookupWords).grade node.entityType = .high := by
    decide +kernel
  obtain ⟨e, he, hpoints, hcalled, hforemost⟩ := hthere
  have hs : Reachable s := Reachable.empty.run _
  obtain ⟨hhigh, hselected⟩ := (Store.selected_iff hs.sound.keyed he hpoints).2 hforemost
  exact ⟨hs, s.compareRoot node { root := 0 }, rfl, hhigh, e, he, hselected, hcalled⟩

end MemoryGraph
