-- SUMMARY: Under an embedder that answers every text, the calls of tools keep every entity embedded by its present text.
import MemoryGraph.Proofs.Lineage
import MemoryGraph.Server.Session

/-!
# Fresh vectors

A vector is fresh when it is that of the text its entity has now. Operations
leave fresh vectors behind but for those of the entities that they touch, and
each call of a tool embeds exactly these again behind its operation. What goes
from one entity embedded to the next is that all vectors are fresh but for those
of some stale entities.
-/
namespace MemoryGraph

/-- The embedder that answers every text by `f`. -/
def Embedder.total (f : String → Embedding) : Embedder := .answering fun text => some (f text)

/-- Whether the stored vector of an entity is what `f` makes of its text. -/
def Entity.IsFresh (f : String → Embedding) (e : Entity) : Prop :=
  e.embedding = some (f e.embeddingText).toBlob

namespace Store

/-- The vectors are fresh, but for those of the `stale` entities. -/
def FreshBut (f : String → Embedding) (s : Store) (stale : List Id) : Prop :=
  ∀ e ∈ s.entities, e.id ∉ stale → e.IsFresh f

/-- All vectors are fresh. -/
def Fresh (f : String → Embedding) (s : Store) : Prop := s.FreshBut f []

/-- An entity is in the store, under a row with its text. -/
def Tells (s : Store) (e : Entity) : Prop :=
  s.HasEntity e.id ∧ ∀ row ∈ s.entities, row.id = e.id → row.embeddingText = e.embeddingText

variable {f : String → Embedding} {s mid after : Store} {stale touched : List Id} {id : Id}

theorem fresh_empty : Fresh f empty := by
  simp [Fresh, FreshBut, empty]

theorem FreshBut.mono {stale' : List Id} (h : s.FreshBut f stale) (hsub : stale ⊆ stale') :
    s.FreshBut f stale' :=
  fun e he hfresh => h e he fun hstale => hfresh (hsub hstale)

/-- Of fresh vectors those stay fresh whose entity is not touched. -/
theorem Fresh.retold (h : s.Fresh f) (hretold : s.Retold touched after) :
    after.FreshBut f touched := by
  intro e he hfresh
  obtain ⟨old, hold, hkeeps⟩ | ⟨htouched, _⟩ := hretold.row e he
  · obtain ⟨hvector, htext⟩ := hkeeps.told hfresh
    rw [Entity.IsFresh, ← hvector, ← htext]
    exact h old hold List.not_mem_nil
  · exact absurd htouched hfresh

theorem Keyed.tells (hk : s.Keyed) {e : Entity} (he : e ∈ s.entities) : s.Tells e :=
  ⟨⟨e, he, rfl⟩, fun _ hrow hid => congrArg _ (hk.entities.unique hrow he hid)⟩

/-! ## What operations give back -/

section Given

variable {now : Timestamp} {e : Entity}

/-- The entity that is given back is the one that is stored. -/
theorem addEntity_gives {input : EntityDraft} (h : s.addEntity now input = .ok (e, after)) :
    after.entity? s.nextEntity = some e := by
  simp only [addEntity, guard_eq_ok, bind_eq_ok, Prod.exists] at h
  obtain ⟨_, row, first, hrow, rows, second, hrows, stored, hstored, h⟩ := h
  cases h
  obtain ⟨_, _, rfl, _⟩ := appendEntity_eq_ok hrow
  exact existing_eq_ok.1 hstored

theorem changeEntity_gives {update : EntityChange}
    (h : s.changeEntity now id update = .ok (e, after)) : after.entity? id = some e := by
  simp only [changeEntity, bind_eq_ok] at h
  obtain ⟨_, _, _, _, _, _, stored, hstored, h⟩ := h
  cases h
  exact existing_eq_ok.1 hstored

theorem mergeEntities_gives {source target : Id} {effect : MergeEffect}
    (h : s.mergeEntities now source target = .ok (effect, after)) :
    after.entity? target = some effect.entity := by
  simp only [mergeEntities, guard_eq_ok, bind_eq_ok, Prod.exists] at h
  obtain ⟨_, _, _, _, _, _, _, _, _, _, stored, hstored, h⟩ := h
  cases h
  exact existing_eq_ok.1 hstored

theorem mem_of_withoutEmbedding {limit : Nat} (h : e ∈ s.withoutEmbedding limit) :
    e ∈ s.entities := by
  unfold withoutEmbedding at h
  dsimp only at h
  split at h
  · exact (List.mem_filter.1 (List.mem_of_mem_take h)).1
  · exact (List.mem_filter.1 h).1

end Given

/-! ## Embedding -/

section Embedding

variable {e : Entity} {v : Embedding}

theorem setEmbedding_eq_ok : s.setEmbedding id v = .ok after ↔
    s.HasEntity id ∧ after = s.modifyEntity id fun e => { e with embedding := some v.toBlob } := by
  simp only [setEmbedding, bind_eq_ok, existing_eq_ok]
  constructor
  · rintro ⟨e, he, ⟨⟩⟩
    exact ⟨hasEntity_of_entity? he, rfl⟩
  · rintro ⟨hthere, rfl⟩
    obtain ⟨e, he⟩ := hthere.exists_entity?
    exact ⟨e, he, rfl⟩

/-- Storing a vector changes no text, and no vector of another entity. -/
theorem row_of_setEmbedding (h : s.setEmbedding id v = .ok after) (he : e ∈ after.entities) :
    ∃ old ∈ s.entities, old.id = e.id ∧ old.embeddingText = e.embeddingText ∧
      e.embedding = if e.id = id then some v.toBlob else old.embedding := by
  obtain ⟨_, rfl⟩ := setEmbedding_eq_ok.1 h
  obtain ⟨old, hold, rfl⟩ := List.mem_map.1 he
  refine ⟨old, hold, ?_⟩
  by_cases hid : old.id = id <;> simp [hid, Entity.embeddingText]

theorem Tells.setEmbedding (ht : s.Tells e) (h : s.setEmbedding id v = .ok after) :
    after.Tells e := by
  constructor
  · obtain ⟨_, rfl⟩ := setEmbedding_eq_ok.1 h
    exact hasEntity_modifyEntity _ _ (fun _ => rfl) ht.1
  · intro row hrow hid
    obtain ⟨old, hold, hsame, htext, _⟩ := row_of_setEmbedding h hrow
    exact htext.symm.trans (ht.2 old hold (hsame.trans hid))

/-- Embedding an entity by its text makes it fresh. -/
theorem FreshBut.setEmbedding (hs : s.FreshBut f (e.id :: stale)) (ht : s.Tells e)
    (h : s.setEmbedding e.id (f e.embeddingText) = .ok after) : after.FreshBut f stale := by
  intro row hrow hfresh
  obtain ⟨old, hold, hid, htext, hvector⟩ := row_of_setEmbedding h hrow
  rw [Entity.IsFresh, hvector, ← htext]
  split
  · rename_i hsame
    rw [ht.2 old hold (hid.trans hsame)]
  · rename_i hother
    apply hs old hold
    rw [hid]
    simp [hother, hfresh]

end Embedding

/-! ## Embedding several entities -/

theorem embedOne_total {e : Entity} (ht : s.Tells e) :
    ∃ after, s.embedOne (.total f) e = .ok (true, after) ∧
      s.setEmbedding e.id (f e.embeddingText) = .ok after := by
  have hok : s.setEmbedding e.id (f e.embeddingText) = .ok _ := setEmbedding_eq_ok.2 ⟨ht.1, rfl⟩
  exact ⟨_, bind_eq_ok.2 ⟨_, hok, rfl⟩, hok⟩

/-- Embedding entities one after the other by their texts succeeds and makes them fresh. -/
theorem embedAll_total {es : List Entity} (hk : s.Keyed) (hes : ∀ e ∈ es, s.Tells e)
    (hs : s.FreshBut f (es.map Entity.id ++ stale)) :
    ∃ count after, s.embedAll (.total f) es = .ok (count, after) ∧ after.Keyed ∧
      after.FreshBut f stale := by
  induction es generalizing s with
  | nil => exact ⟨0, s, rfl, hk, hs⟩
  | cons e rest ih =>
    have ht := hes e List.mem_cons_self
    obtain ⟨mid, hone, hstore⟩ := embedOne_total ht
    obtain ⟨count, after, hrest, hafter⟩ := ih ((setEmbedding_write hstore).keyed hk)
      (fun other hother => (hes other (List.mem_cons_of_mem _ hother)).setEmbedding hstore)
      (hs.setEmbedding ht hstore)
    exact ⟨_, after, bind_eq_ok.2 ⟨_, hone, bind_eq_ok.2 ⟨_, hrest, rfl⟩⟩, hafter⟩

end Store

/-! ## Calls -/

namespace Server

/-- The server with the embedder that answers every text by `f`. -/
def answering (server : Server) (f : String → Embedding) : Server :=
  { server with embedder := .total f }

theorem lift_eq_ok {α : Type} {result : Except Refusal α} {a : α} :
    lift result = .ok a ↔ result = .ok a := by
  cases result <;> simp [lift, Except.mapError]

/-- A call that gives a result leaves the store that comes with it. -/
theorem pure_eq_ok {ε α : Type} {a result : α} {s after : Store} :
    (pure (a, s) : Except ε (α × Store)) = .ok (result, after) ↔ a = result ∧ s = after := by
  simp [pure, Except.pure]

variable {f : String → Embedding} {server : Server} {s mid after : Store} {now : Moment}

/-- What holds of a store between calls: ids are keys, and all vectors are fresh. -/
structure Embedded (f : String → Embedding) (s : Store) : Prop where
  keyed : s.Keyed
  fresh : s.Fresh f

theorem refresh_fresh {ids : List Id} (hk : s.Keyed) (hs : s.FreshBut f ids) :
    Embedded f ((server.answering f).refresh ids s) := by
  -- The ids that are not passed over are those of the rows.
  have hrows : s.FreshBut f ((ids.filterMap s.entity?).map Entity.id ++ []) := by
    intro e he hfresh
    refine hs e he fun hid => hfresh ?_
    have hfound := hk.entity?_eq_some.2 ⟨he, rfl⟩
    simpa using ⟨e, ⟨e.id, hid, hfound⟩, rfl⟩
  have htells : ∀ e ∈ ids.filterMap s.entity?, s.Tells e := by
    intro e he
    obtain ⟨id, _, hfound⟩ := List.mem_filterMap.1 he
    exact hk.tells (Store.mem_of_entity? hfound)
  obtain ⟨count, after, hok, hkeyed, hfresh⟩ := Store.embedAll_total hk htells hrows
  have hrefresh : (server.answering f).refresh ids s = after := by
    have hagain : s.embedAgain (server.answering f).embedder ids = .ok (count, after) := hok
    rw [refresh, hagain]
  rw [hrefresh]
  exact ⟨hkeyed, hfresh⟩

/-- What an operation leaves behind to be embedded again. -/
theorem performed (hs : Embedded f s) (now : Moment) (operation : Operation)
    (h : operation.perform now.text s = .ok mid) :
    mid.Keyed ∧ mid.FreshBut f (operation.touched now.text s) :=
  ⟨(Operation.perform_writes hs.keyed h).keeps Store.Write.keyed hs.keyed,
    hs.fresh.retold (Operation.perform_retold h)⟩

/-- An operation that touches nothing leaves nothing to be embedded again. -/
theorem untouched (hs : Embedded f s) (now : Moment) (operation : Operation)
    (hnone : operation.touched now.text s = []) (h : operation.perform now.text s = .ok mid) :
    Embedded f mid := by
  obtain ⟨hk, hfresh⟩ := performed hs now operation h
  rw [hnone] at hfresh
  exact ⟨hk, hfresh⟩

/-- Embedding the one entity that an operation touched. -/
theorem embedOne_fresh {e : Entity} {id : Id} {stored : Bool} (hk : mid.Keyed)
    (hstale : mid.FreshBut f [id]) (hrow : mid.entity? id = some e)
    (h : mid.embedOne (server.answering f).embedder e = .ok (stored, after)) :
    Embedded f after := by
  obtain ⟨he, rfl⟩ := hk.entity?_eq_some.1 hrow
  obtain ⟨after', hone, hstore⟩ := Store.embedOne_total (hk.tells he)
  cases hone.symm.trans h
  exact ⟨(Store.setEmbedding_write hstore).keyed hk, hstale.setEmbedding (hk.tells he) hstore⟩

theorem perform_fresh {call : ToolCall} {result : ToolResult} (hs : Embedded f s)
    (h : (server.answering f).perform now.text call s = .ok (result, after)) :
    Embedded f after := by
  cases call with
  | searchNodes query limit | listRootNodes | listOrphans | graphStats =>
    obtain ⟨_, rfl⟩ := pure_eq_ok.1 h
    exact hs
  | exportNodes ids =>
    simp only [perform, guard_eq_ok, pure_eq_ok] at h
    obtain ⟨_, _, rfl⟩ := h
    exact hs
  | previewImport document | openNode id name =>
    simp only [perform, bind_eq_ok, pure_eq_ok] at h
    obtain ⟨_, _, _, rfl⟩ := h
    exact hs
  | executeImport document decisions mode =>
    simp only [perform, bind_eq_ok, pure_eq_ok] at h
    obtain ⟨document, _, decisions, _, _, rfl⟩ := h
    obtain ⟨hk, hstale⟩ :=
      performed hs now (.runImport document decisions (mode.getD server.importMode)) rfl
    exact refresh_fresh hk hstale
  | mergeNodes source target =>
    simp only [perform, bind_eq_ok, lift_eq_ok, pure_eq_ok, Prod.exists] at h
    obtain ⟨report, mid, hmerge, _, rfl⟩ := h
    obtain ⟨hk, hstale⟩ :=
      performed hs now (.mergeEntities source target) (bind_eq_ok.2 ⟨_, hmerge, rfl⟩)
    rw [Store.entity?_id (Store.mergeEntities_gives hmerge)]
    exact refresh_fresh hk hstale
  | createEntity input =>
    simp only [perform, bind_eq_ok, lift_eq_ok, pure_eq_ok, Prod.exists] at h
    obtain ⟨e, mid, hadd, _, last, hembed, _, rfl⟩ := h
    obtain ⟨hk, hstale⟩ := performed hs now (.addEntity input) (bind_eq_ok.2 ⟨_, hadd, rfl⟩)
    exact embedOne_fresh hk hstale (Store.addEntity_gives hadd) hembed
  | updateEntity id update =>
    simp only [perform, bind_eq_ok, lift_eq_ok, pure_eq_ok, Prod.exists] at h
    obtain ⟨e, mid, hchange, _, last, hembed, _, rfl⟩ := h
    obtain ⟨hk, hstale⟩ :=
      performed hs now (.changeEntity id update) (bind_eq_ok.2 ⟨_, hchange, rfl⟩)
    exact embedOne_fresh hk hstale (Store.changeEntity_gives hchange) hembed
  | reindexEmbeddings limit =>
    simp only [perform, bind_eq_ok, lift_eq_ok, pure_eq_ok, Prod.exists] at h
    obtain ⟨_, mid, hembed, _, rfl⟩ := h
    have htells : ∀ e ∈ s.withoutEmbedding (limit.getD embedBatch), s.Tells e :=
      fun e he => hs.keyed.tells (Store.mem_of_withoutEmbedding he)
    obtain ⟨_, after', hok, hkeyed, hfresh⟩ :=
      Store.embedAll_total hs.keyed htells (hs.fresh.mono (List.nil_subset _))
    cases hok.symm.trans hembed
    exact ⟨hkeyed, hfresh⟩
  | moveNode node parent =>
    simp only [perform, bind_eq_ok, lift_eq_ok, pure_eq_ok, Prod.exists] at h
    obtain ⟨_, mid, hmove, _, rfl⟩ := h
    exact untouched hs now (.reparent node parent) rfl (bind_eq_ok.2 ⟨_, hmove, rfl⟩)
  | deleteNode node cascade =>
    simp only [perform, bind_eq_ok, lift_eq_ok, pure_eq_ok, Prod.exists] at h
    obtain ⟨_, mid, hprune, _, rfl⟩ := h
    exact untouched hs now (.prune node cascade) rfl (bind_eq_ok.2 ⟨_, hprune, rfl⟩)
  | addObservations id contents =>
    simp only [perform, bind_eq_ok, lift_eq_ok, pure_eq_ok, Prod.exists] at h
    obtain ⟨_, mid, hobserve, _, rfl⟩ := h
    exact untouched hs now (.observe id contents) rfl (bind_eq_ok.2 ⟨_, hobserve, rfl⟩)
  | deleteObservation id =>
    simp only [perform, bind_eq_ok, lift_eq_ok, pure_eq_ok] at h
    obtain ⟨mid, hdrop, _, rfl⟩ := h
    exact untouched hs now (.dropObservation id) rfl hdrop
  | createRelation source target relationType =>
    simp only [perform, bind_eq_ok, lift_eq_ok, pure_eq_ok, Prod.exists] at h
    obtain ⟨_, mid, hrelate, _, rfl⟩ := h
    exact untouched hs now (.relate source target relationType) rfl (bind_eq_ok.2 ⟨_, hrelate, rfl⟩)
  | deleteRelation id =>
    simp only [perform, bind_eq_ok, lift_eq_ok, pure_eq_ok] at h
    obtain ⟨mid, hdrop, _, rfl⟩ := h
    exact untouched hs now (.dropRelation id) rfl hdrop

/-- The store that a request leaves, whether it is answered or refused. -/
def outcome (server : Server) (now : Moment) (request : Request) (s : Store) : Store :=
  match server.answer now.text request s with
  | .ok (_, after) => after
  | .error _ => s

/-- The store after requests at their moments, one after the other. -/
def serve (server : Server) (s : Store) : List (Moment × Request) → Store
  | [] => s
  | (now, request) :: rest => server.serve (server.outcome now request s) rest

theorem outcome_fresh {request : Request} (hs : Embedded f s) :
    Embedded f ((server.answering f).outcome now request s) := by
  unfold outcome
  split
  · rename_i reply after hanswer
    cases request with
    | introduction | liveness | tools =>
      cases hanswer
      exact hs
    | call tool arguments =>
      simp only [answer, bind_eq_ok, Prod.exists] at hanswer
      obtain ⟨_, _, _, _, hperform, ⟨⟩⟩ := hanswer
      exact perform_fresh hs hperform
  · exact hs

theorem serve_fresh (server : Server) (steps : List (Moment × Request)) (hs : Embedded f s) :
    Embedded f ((server.answering f).serve s steps) := by
  induction steps generalizing s with
  | nil => exact hs
  | cons step rest ih => exact ih (outcome_fresh hs)

end Server

/-- Whatever is asked of a server whose embedder answers every text by `f`, and whether it is
answered or refused, every entity has a stored vector, which is read back as what `f` makes of the
text that the entity has then. -/
theorem vectors_fresh (f : String → Embedding) (server : Server)
    (steps : List (Moment × Request)) :
    ∀ e ∈ ((server.answering f).serve .empty steps).entities,
      e.embedding.map Embedding.ofBlob = some (f e.embeddingText) := by
  intro e he
  have hserved : Server.Embedded f ((server.answering f).serve .empty steps) :=
    Server.serve_fresh server steps ⟨Store.keyed_empty, Store.fresh_empty⟩
  have hfresh := hserved.fresh e he List.not_mem_nil
  rw [hfresh, Option.map_some, Embedding.ofBlob_toBlob]

/-- An entity that has taken another one over has the vector of a text with the alias that came with
it. -/
theorem vector_of_taker :
    let f : String → Embedding := fun text => [⟨text.length.toUInt32⟩]
    let now : Moment := .ofNanoseconds 0
    let s := (Server.answering {} f).serve .empty [
      (now, .call "create_entity" [("name", .string "old"), ("entity_type", .string "Note")]),
      (now, .call "create_entity" [("name", .string "new"), ("entity_type", .string "Note")]),
      (now, .call "merge_nodes" [("source_id", .int 1), ("target_id", .int 2)])]
    ∃ e ∈ s.entities, e.aliases = some "old" ∧
      e.embedding.map Embedding.ofBlob = some (f e.embeddingText) := by
  intro f now s
  have htaker : ∃ e ∈ s.entities, e.aliases = some "old" := by decide +kernel
  obtain ⟨e, he, haliases⟩ := htaker
  exact ⟨e, he, haliases, vectors_fresh f {} _ e he⟩

end MemoryGraph
