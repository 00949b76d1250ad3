-- SUMMARY: Embedding in batches gets past the texts that are not answered only as long as they do not fill a batch.
import MemoryGraph.Proofs.Freshness
import MemoryGraph.Proofs.Ranking

/-!
# Embedding in batches

A batch holds the first entities without a vector, by their ids, before it is
known which of their texts are answered. Those that are not stay where they are
and are in the next batch again. A batch is therefore of use as long as they
leave a place in it, and batch after batch comes to an entity exactly when fewer
unanswered ones wait before it than a batch holds.
-/
namespace MemoryGraph

/-- Whether an embedder has a vector for the text of an entity. -/
def Entity.isAnswered (embedder : Embedder) (e : Entity) : Bool :=
  (embedder.vector? e.embeddingText).isSome

/-- An entity with the vector that an embedder has for its text, if it has one. -/
def Entity.embeddedBy (embedder : Embedder) (e : Entity) : Entity :=
  { e with embedding := ((embedder.vector? e.embeddingText).map Embedding.toBlob).or e.embedding }

theorem Entity.embeddedBy_of_unanswered {embedder : Embedder} {e : Entity}
    (h : e.isAnswered embedder = false) : e.embeddedBy embedder = e := by
  rw [isAnswered, Option.isSome_eq_false_iff, Option.isNone_iff_eq_none] at h
  simp [embeddedBy, h]

theorem Entity.isNone_embeddedBy (embedder : Embedder) (e : Entity) :
    (e.embeddedBy embedder).embedding.isNone = (!e.isAnswered embedder && e.embedding.isNone) := by
  rw [embeddedBy, isAnswered]
  cases embedder.vector? e.embeddingText <;> simp

/-- A batch reaches behind a number of entities. A limit that exceeds the integers of 64 bits with a
sign is none. -/
def Reaches (limit before : Nat) : Prop :=
  IntegerRange.signed64.holds limit = true → before < limit

instance (limit before : Nat) : Decidable (Reaches limit before) :=
  inferInstanceAs (Decidable (IntegerRange.signed64.holds limit = true → before < limit))

theorem Reaches.mono {limit few many : Nat} (h : Reaches limit many) (hle : few ≤ many) :
    Reaches limit few :=
  fun hlimit => Nat.lt_of_le_of_lt hle (h hlimit)

namespace Store

/-- The entities that have no vector yet. -/
def waiting (s : Store) : List Entity := s.entities.filter fun e => e.embedding.isNone

/-- The store in which some entities have the vectors of their texts. -/
def embedded (embedder : Embedder) (batch : List Entity) (s : Store) : Store :=
  { s with
    entities := s.entities.map fun e => if e ∈ batch then e.embeddedBy embedder else e }

/-- The store after the entities of one batch have their vectors. -/
def afterBatch (embedder : Embedder) (limit : Nat) (s : Store) : Store :=
  s.embedded embedder (s.withoutEmbedding limit)

/-- The store after a number of batches. -/
def batches (embedder : Embedder) (limit : Nat) : Nat → Store → Store
  | 0, s => s
  | count + 1, s =>
    match s.embedMissing embedder limit with
    | .ok (_, after) => batches embedder limit count after
    | .error _ => s

/-- An entity waits for a vector that is to be had, and the entities before it for which none is to
be had leave a place for it. -/
structure InReach (s : Store) (embedder : Embedder) (limit : Nat) (e : Entity) : Prop where
  waits : e ∈ s.waiting
  answered : e.isAnswered embedder = true
  reached : Reaches limit
    (s.waiting.countP fun other => decide (other.id < e.id) && !other.isAnswered embedder)

variable {s : Store} {embedder : Embedder} {batch : List Entity} {e : Entity} {limit : Nat}

/-! ## One batch -/

theorem Keyed.pairwise_waiting (hk : s.Keyed) :
    s.waiting.Pairwise fun a b => a.id < b.id :=
  hk.entities.pairwise.filter _

theorem withoutEmbedding_eq : s.withoutEmbedding limit =
    if IntegerRange.signed64.holds limit then s.waiting.take limit else s.waiting :=
  rfl

theorem withoutEmbedding_sublist : (s.withoutEmbedding limit).Sublist s.waiting := by
  rw [withoutEmbedding_eq]
  split
  · exact List.take_sublist _ _
  · exact .refl _

/-- A batch holds the entities that have few others without a vector before them. -/
theorem mem_withoutEmbedding (hk : s.Keyed) : e ∈ s.withoutEmbedding limit ↔
    e ∈ s.waiting ∧ Reaches limit (s.waiting.countP fun other => other.id < e.id) := by
  have hasymm : ∀ {a b : Entity}, a.id < b.id → ¬ b.id < a.id := Int.lt_asymm
  have htake := mem_take_iff_of_pairwise (a := e) (n := limit) hasymm hk.pairwise_waiting
  rw [withoutEmbedding_eq, Reaches]
  split
  · rename_i hlimit
    simpa [hlimit] using htake
  · rename_i hnone
    simp [hnone]

theorem Keyed.embedded (hk : s.Keyed) : (s.embedded embedder batch).Keyed := by
  refine { hk with entities := hk.entities.map fun e => ?_ }
  split <;> rfl

theorem mem_embedded_of_not_mem (he : e ∈ s.entities) (hout : e ∉ batch) :
    e ∈ (s.embedded embedder batch).entities :=
  List.mem_map.2 ⟨e, he, if_neg hout⟩

theorem embeddedBy_mem_embedded (he : e ∈ s.entities) (hin : e ∈ batch) :
    e.embeddedBy embedder ∈ (s.embedded embedder batch).entities :=
  List.mem_map.2 ⟨e, he, if_pos hin⟩

/-- Of an entity that is not answered the row stays as it is. -/
theorem embedded_of_unanswered (h : e.isAnswered embedder = false) :
    s.embedded embedder [e] = s := by
  have hrows : s.entities.map (fun row => if row ∈ [e] then row.embeddedBy embedder else row) =
      s.entities.map id := by
    refine List.map_congr_left fun row _ => ?_
    split
    · rename_i hsame
      obtain rfl := List.mem_singleton.1 hsame
      exact Entity.embeddedBy_of_unanswered h
    · rfl
  rw [embedded, hrows, List.map_id]

/-- A vector is written to the one row of its id. -/
theorem setEmbedding_eq_embedded {v : Embedding} (hk : s.Keyed) (he : e ∈ s.entities)
    (hv : embedder.vector? e.embeddingText = some v) :
    s.setEmbedding e.id v = .ok (s.embedded embedder [e]) := by
  refine setEmbedding_eq_ok.2 ⟨⟨e, he, rfl⟩, ?_⟩
  rw [embedded, modifyEntity]
  refine congrArg (fun entities => { s with entities }) (List.map_congr_left fun row hrow => ?_)
  by_cases hsame : row = e
  · simp [hsame, Entity.embeddedBy, hv]
  · have hid : row.id ≠ e.id := fun hid => hsame (hk.entities.unique hrow he hid)
    simp [hsame, hid]

theorem embedOne_eq (hk : s.Keyed) (he : e ∈ s.entities) :
    s.embedOne embedder e = .ok (e.isAnswered embedder, s.embedded embedder [e]) := by
  unfold embedOne Entity.isAnswered
  cases hv : embedder.vector? e.embeddingText with
  | none =>
    rw [embedded_of_unanswered (by rw [Entity.isAnswered, hv]; rfl)]
    rfl
  | some v => exact bind_eq_ok.2 ⟨_, setEmbedding_eq_embedded hk he hv, rfl⟩

/-- Entities embedded one after the other are embedded together. -/
theorem embedded_embedded (hout : e.id ∉ batch.map Entity.id) :
    (s.embedded embedder [e]).embedded embedder batch = s.embedded embedder (e :: batch) := by
  have hother : e ∉ batch ∧ e.embeddedBy embedder ∉ batch :=
    ⟨fun h => hout (List.mem_map_of_mem h), fun h => hout (List.mem_map.2 ⟨_, h, rfl⟩)⟩
  simp only [embedded, List.map_map, Store.mk.injEq, and_true]
  refine List.map_congr_left fun row _ => ?_
  by_cases hsame : row = e
  · simp [hsame, hother.2]
  · simp [hsame]

theorem embedAll_eq (hk : s.Keyed) (hrows : batch ⊆ s.entities)
    (hids : (batch.map Entity.id).Nodup) :
    s.embedAll embedder batch =
      .ok (batch.countP (Entity.isAnswered embedder), s.embedded embedder batch) := by
  induction batch generalizing s with
  | nil =>
    have hsame : s.embedded embedder [] = s := by simp [embedded]
    rw [hsame]
    rfl
  | cons e rest ih =>
    rw [List.map_cons, List.nodup_cons] at hids
    obtain ⟨hout, hids⟩ := hids
    have hrest : rest ⊆ (s.embedded embedder [e]).entities := by
      intro other hother
      refine mem_embedded_of_not_mem (hrows (List.mem_cons_of_mem _ hother)) ?_
      rintro hsame
      obtain rfl := List.mem_singleton.1 hsame
      exact hout (List.mem_map_of_mem hother)
    rw [embedAll, embedOne_eq hk (hrows List.mem_cons_self)]
    simp only [bind, Except.bind, ih hk.embedded hrest hids, embedded_embedded hout]
    rw [List.countP_cons, Nat.add_comm]
    rfl

theorem embedMissing_eq (henabled : embedder.isEnabled = true) (hk : s.Keyed) (limit : Nat) :
    s.embedMissing embedder limit =
      .ok ((s.withoutEmbedding limit).countP (Entity.isAnswered embedder),
        s.afterBatch embedder limit) := by
  have hsub : (s.withoutEmbedding limit).Sublist s.entities :=
    withoutEmbedding_sublist.trans List.filter_sublist
  rw [embedMissing, if_pos henabled]
  exact embedAll_eq hk hsub.subset ((hsub.map Entity.id).nodup hk.entities.nodup_ids)

/-! ## What a batch leaves -/

/-- Those go on waiting that are not in the batch or not answered. -/
theorem waiting_embedded (s : Store) : (s.embedded embedder batch).waiting =
    s.waiting.filter fun e => !(decide (e ∈ batch) && e.isAnswered embedder) := by
  have hwaits : ∀ e : Entity,
      (if e ∈ batch then e.embeddedBy embedder else e).embedding.isNone =
        (!(decide (e ∈ batch) && e.isAnswered embedder) && e.embedding.isNone) := by
    intro e
    by_cases hin : e ∈ batch <;> simp [hin, Entity.isNone_embeddedBy]
  have hrows : ∀ e ∈ s.entities.filter (fun e =>
        !(decide (e ∈ batch) && e.isAnswered embedder) && e.embedding.isNone),
      (if e ∈ batch then e.embeddedBy embedder else e) = id e := by
    intro e he
    split
    · rename_i hin
      have hunanswered := (List.mem_filter.1 he).2
      exact Entity.embeddedBy_of_unanswered (by simp_all)
    · rfl
  rw [waiting, embedded, List.filter_map]
  simp only [Function.comp_def, hwaits]
  rw [List.map_congr_left hrows, List.map_id, waiting, List.filter_filter]

/-- The unanswered ones all go on waiting. -/
theorem countP_unanswered (embedder : Embedder) (batch : List Entity) (s : Store) (e : Entity) :
    (s.embedded embedder batch).waiting.countP
        (fun other => decide (other.id < e.id) && !other.isAnswered embedder) =
      s.waiting.countP fun other => decide (other.id < e.id) && !other.isAnswered embedder := by
  rw [waiting_embedded, List.countP_filter]
  refine List.countP_congr fun other _ => ?_
  cases other.isAnswered embedder with
  | true => simp
  | false => simp

/-! ## Who is in reach -/

/-- Of some entities in the order of their ids, the first that satisfies a condition. -/
theorem exists_foremost {es : List Entity} {p : Entity → Bool}
    (hes : es.Pairwise fun a b => a.id < b.id) (he : e ∈ es) (hp : p e = true) :
    ∃ first ∈ es, p first = true ∧ first.id ≤ e.id ∧
      ∀ other ∈ es, other.id < first.id → p other = false := by
  induction es with
  | nil => cases he
  | cons head rest ih =>
    obtain ⟨hhead, hrest⟩ := List.pairwise_cons.1 hes
    cases hfirst : p head with
    | true =>
      refine ⟨head, List.mem_cons_self, hfirst, ?_, ?_⟩
      · rcases List.mem_cons.1 he with rfl | he
        · exact Int.le_refl _
        · exact Int.le_of_lt (hhead e he)
      · intro other hother hlt
        rcases List.mem_cons.1 hother with rfl | hother
        · exact absurd hlt (Int.lt_irrefl _)
        · exact absurd hlt (Int.lt_asymm (hhead other hother))
    | false =>
      have hbehind : e ∈ rest := by
        rcases List.mem_cons.1 he with rfl | he
        · cases hp.symm.trans hfirst
        · exact he
      obtain ⟨first, hmem, hpfirst, hle, hnone⟩ := ih hrest hbehind
      refine ⟨first, List.mem_cons_of_mem _ hmem, hpfirst, hle, ?_⟩
      intro other hother hlt
      rcases List.mem_cons.1 hother with rfl | hother
      · exact hfirst
      · exact hnone other hother hlt

/-- An answered entity of a batch is in reach. -/
theorem inReach_of_mem (hk : s.Keyed) (he : e ∈ s.withoutEmbedding limit)
    (hanswered : e.isAnswered embedder = true) : s.InReach embedder limit e := by
  obtain ⟨hwaits, hreached⟩ := (mem_withoutEmbedding hk).1 he
  refine ⟨hwaits, hanswered, hreached.mono (List.countP_mono_left fun other _ hother => ?_)⟩
  exact (Bool.and_eq_true_iff.1 hother).1

/-- As long as some entity is in reach, a batch has one that is answered: the first of all that
are. -/
theorem InReach.exists_mem (hk : s.Keyed) (h : s.InReach embedder limit e) :
    ∃ first ∈ s.withoutEmbedding limit, first.isAnswered embedder = true := by
  obtain ⟨first, hmem, hanswered, hle, hnone⟩ :=
    exists_foremost hk.pairwise_waiting h.waits h.answered
  refine ⟨first, (mem_withoutEmbedding hk).2 ⟨hmem, h.reached.mono ?_⟩, hanswered⟩
  refine List.countP_mono_left fun other hother hbefore => ?_
  have hlt : other.id < first.id := of_decide_eq_true hbefore
  simp [hnone other hother hlt, Int.lt_of_lt_of_le hlt hle]

/-- A batch stores a vector exactly when some entity is in reach. -/
theorem countP_pos_iff_inReach (hk : s.Keyed) :
    0 < (s.withoutEmbedding limit).countP (Entity.isAnswered embedder) ↔
      ∃ e, s.InReach embedder limit e := by
  rw [List.countP_pos_iff]
  constructor
  · rintro ⟨e, he, hanswered⟩
    exact ⟨e, inReach_of_mem hk he hanswered⟩
  · rintro ⟨e, he⟩
    exact he.exists_mem hk

/-- Outside of a batch an entity is in reach after it exactly when it was before. -/
theorem inReach_afterBatch_iff (hout : e ∉ s.withoutEmbedding limit) :
    (s.afterBatch embedder limit).InReach embedder limit e ↔ s.InReach embedder limit e := by
  have hwaits : e ∈ (s.afterBatch embedder limit).waiting ↔ e ∈ s.waiting := by
    rw [afterBatch, waiting_embedded, List.mem_filter]
    simp [hout]
  have hcount := countP_unanswered embedder (s.withoutEmbedding limit) s e
  constructor
  · rintro ⟨hmem, hanswered, hreached⟩
    exact ⟨hwaits.1 hmem, hanswered, hcount ▸ hreached⟩
  · rintro ⟨hmem, hanswered, hreached⟩
    exact ⟨hwaits.2 hmem, hanswered, hcount.symm ▸ hreached⟩

/-! ## Batch after batch -/

variable {count : Nat}

theorem batches_succ (henabled : embedder.isEnabled = true) (hk : s.Keyed) :
    s.batches embedder limit (count + 1) =
      (s.afterBatch embedder limit).batches embedder limit count := by
  rw [batches, embedMissing_eq henabled hk]

theorem mem_waiting : e ∈ s.waiting ↔ e ∈ s.entities ∧ e.embedding = none := by
  rw [waiting, List.mem_filter, Option.isNone_iff_eq_none]

/-- A vector that is stored stays. -/
theorem mem_batches (henabled : embedder.isEnabled = true) (hk : s.Keyed) (he : e ∈ s.entities)
    (hsome : e.embedding ≠ none) : e ∈ (s.batches embedder limit count).entities := by
  induction count generalizing s with
  | zero => exact he
  | succ count ih =>
    rw [batches_succ henabled hk]
    have hout : e ∉ s.withoutEmbedding limit := fun hin =>
      hsome (mem_waiting.1 (withoutEmbedding_sublist.subset hin)).2
    exact ih hk.embedded (mem_embedded_of_not_mem he hout)

/-- While some entity is in reach, fewer wait after a batch. -/
theorem InReach.length_waiting_lt (hk : s.Keyed) (h : s.InReach embedder limit e) :
    (s.afterBatch embedder limit).waiting.length < s.waiting.length := by
  obtain ⟨first, hin, hanswered⟩ := h.exists_mem hk
  rw [afterBatch, waiting_embedded, List.length_filter_lt_length_iff_exists]
  exact ⟨first, withoutEmbedding_sublist.subset hin, by simp [hin, hanswered]⟩

/-- What is in reach has its vector after as many batches as there are entities without one. -/
theorem InReach.embeddedBy_mem (henabled : embedder.isEnabled = true) (hk : s.Keyed)
    (h : s.InReach embedder limit e) (hcount : s.waiting.length ≤ count) :
    e.embeddedBy embedder ∈ (s.batches embedder limit count).entities := by
  induction count generalizing s with
  | zero =>
    rw [Nat.le_zero, List.length_eq_zero_iff] at hcount
    exact absurd (hcount ▸ h.waits) List.not_mem_nil
  | succ count ih =>
    rw [batches_succ henabled hk]
    by_cases hin : e ∈ s.withoutEmbedding limit
    · have hstored : e.embeddedBy embedder ∈ (s.afterBatch embedder limit).entities :=
        embeddedBy_mem_embedded (mem_waiting.1 h.waits).1 hin
      refine mem_batches henabled hk.embedded hstored ?_
      rw [Ne, ← Option.isNone_iff_eq_none, Entity.isNone_embeddedBy, h.answered]
      simp
    -- Passed over, it is in reach of the batches to come, for fewer that wait.
    · have hless := Nat.lt_of_lt_of_le (h.length_waiting_lt hk) hcount
      exact ih hk.embedded ((inReach_afterBatch_iff hin).2 h) (Nat.le_of_lt_succ hless)

/-- What is answered but not in reach goes on waiting for ever. -/
theorem mem_waiting_batches (henabled : embedder.isEnabled = true) (hk : s.Keyed)
    (he : e ∈ s.waiting) (hanswered : e.isAnswered embedder = true)
    (hreach : ¬ s.InReach embedder limit e) :
    e ∈ (s.batches embedder limit count).waiting := by
  induction count generalizing s with
  | zero => exact he
  | succ count ih =>
    rw [batches_succ henabled hk]
    have hout : e ∉ s.withoutEmbedding limit := fun hin => hreach (inReach_of_mem hk hin hanswered)
    have hwaits : e ∈ (s.afterBatch embedder limit).waiting := by
      obtain ⟨hmem, hnone⟩ := mem_waiting.1 he
      exact mem_waiting.2 ⟨mem_embedded_of_not_mem hmem hout, hnone⟩
    exact ih hk.embedded hwaits fun hlater => hreach ((inReach_afterBatch_iff hout).1 hlater)

theorem Keyed.batches (henabled : embedder.isEnabled = true) (hk : s.Keyed) :
    (s.batches embedder limit count).Keyed := by
  induction count generalizing s with
  | zero => exact hk
  | succ count ih =>
    rw [batches_succ henabled hk]
    exact ih hk.embedded

end Store

/-- With an embedder that answers some texts, a batch stores a vector exactly when some entity is in
reach: it waits, it is answered, and fewer unanswered ones wait before it than the limit. Batch after
batch then embeds the entities in reach and no others, and all of them within as many batches as
there are entities without a vector. -/
theorem backfilled_iff_inReach {s : Store} (h : Reachable s) (answer : String → Option Embedding)
    (limit : Nat) :
    let embedder : Embedder := .answering answer
    (∃ stored after, s.embedMissing embedder limit = .ok (stored, after) ∧
      (0 < stored ↔ ∃ e, s.InReach embedder limit e)) ∧
    ∀ e ∈ s.waiting, ∀ v, answer e.embeddingText = some v →
      let told : Entity := { e with embedding := some v.toBlob }
      ((∃ count, told ∈ (s.batches embedder limit count).entities) ↔
        s.InReach embedder limit e) ∧
      (s.InReach embedder limit e →
        ∀ count, s.waiting.length ≤ count → told ∈ (s.batches embedder limit count).entities) := by
  intro embedder
  have hk : s.Keyed := h.keyed
  have henabled : embedder.isEnabled = true := rfl
  refine ⟨⟨_, _, Store.embedMissing_eq henabled hk limit, Store.countP_pos_iff_inReach hk⟩, ?_⟩
  intro e he v hv told
  have hvector : embedder.vector? e.embeddingText = some v := hv
  have htold : e.embeddedBy embedder = told := by
    simp only [Entity.embeddedBy, hvector, Option.map_some, Option.some_or, told]
  have hanswered : e.isAnswered embedder = true := by
    rw [Entity.isAnswered, hvector]
    rfl
  have hreached : s.InReach embedder limit e →
      ∀ count, s.waiting.length ≤ count → told ∈ (s.batches embedder limit count).entities :=
    fun hreach count hcount => htold ▸ hreach.embeddedBy_mem henabled hk hcount
  refine ⟨⟨?_, fun hreach => ⟨_, hreached hreach _ le_rfl⟩⟩, hreached⟩
  rintro ⟨count, hmem⟩
  by_contra hreach
  -- The entity would have two rows, with a vector and without.
  have hwaits : e ∈ (s.batches embedder limit count).waiting :=
    Store.mem_waiting_batches henabled hk he hanswered hreach
  obtain ⟨hrow, hnone⟩ := Store.mem_waiting.1 hwaits
  have hsame : told = e := (hk.batches henabled).entities.unique hmem hrow rfl
  rw [← hsame] at hnone
  cases hnone

/-- Batches of two and every other entity of four not answered: one answered entity is behind one of
these and gets its vector, the other is behind both and never does. -/
theorem backfilled_behind_one :
    let now : Moment := .ofNanoseconds 0
    let s := Store.run .empty [
      (now, .addEntity { name := "a", entityType := "Note" }),
      (now, .addEntity { name := "b", entityType := "Note" }),
      (now, .addEntity { name := "c", entityType := "Note" }),
      (now, .addEntity { name := "d", entityType := "Note" })]
    let answer (text : String) : Option Embedding :=
      if text = "b Note" ∨ text = "d Note" then some [.one] else none
    let row (id : Id) (name : String) : Entity :=
      { id, name, entityType := "Note", createdAt := now.text, updatedAt := now.text }
    let told (e : Entity) : Entity := { e with embedding := some (Embedding.toBlob [.one]) }
    Reachable s ∧
      (∃ stored after, s.embedMissing (.answering answer) 2 = .ok (stored, after) ∧ 0 < stored) ∧
      told (row 2 "b") ∈ (s.batches (.answering answer) 2 4).entities ∧
      ∀ count, told (row 4 "d") ∉ (s.batches (.answering answer) 2 count).entities := by
  intro now s answer row told
  have hreachable : Reachable s := Reachable.empty.run _
  obtain ⟨⟨stored, after, hok, hpos⟩, hentities⟩ := backfilled_iff_inReach hreachable answer 2
  have hwaits : row 2 "b" ∈ s.waiting ∧ row 4 "d" ∈ s.waiting := by decide +kernel
  have hfirst := hentities (row 2 "b") hwaits.1 [.one] (by decide +kernel)
  have hsecond := hentities (row 4 "d") hwaits.2 [.one] (by decide +kernel)
  have hnear : s.InReach (.answering answer) 2 (row 2 "b") := by constructor <;> decide +kernel
  have hfar : ¬ s.InReach (.answering answer) 2 (row 4 "d") := by
    intro hreach
    have hreached := hreach.reached
    revert hreached
    decide +kernel
  refine ⟨hreachable, ⟨stored, after, hok, hpos.2 ⟨_, hnear⟩⟩, ?_, ?_⟩
  · exact hfirst.2 hnear 4 (by decide +kernel)
  · exact fun count hmem => hfar (hsecond.1.1 ⟨count, hmem⟩)

/-- The first entity is not answered and fills batches of one: the second is answered but is never
come to. -/
theorem stuck_behind_unanswered :
    let now : Moment := .ofNanoseconds 0
    let s := Store.run .empty [
      (now, .addEntity { name := "A", entityType := "Note" }),
      (now, .addEntity { name := "B", entityType := "Note" })]
    let embedder : Embedder := .answering fun text => if text = "B Note" then some [.one] else none
    Reachable s ∧ (∃ e ∈ s.entities, e.embedding = none ∧ e.isAnswered embedder = true) ∧
      s.embedMissing embedder 1 = .ok (0, s) ∧ ∀ count, s.batches embedder 1 count = s := by
  intro now s embedder
  have hbatch : s.embedMissing embedder 1 = .ok (0, s) := by decide +kernel
  refine ⟨Reachable.empty.run _, by decide +kernel, hbatch, ?_⟩
  intro count
  induction count with
  | zero => rfl
  | succ count ih =>
    rw [Store.batches, hbatch]
    exact ih

end MemoryGraph
