-- SUMMARY: Vectors lose nothing as bytes: what is read back of an entity is the vector that was stored for it last.
import MemoryGraph.Proofs.Freshness
import Mathlib.Data.Nat.Digits.Defs
import Mathlib.Logic.Function.Basic

/-!
# Stored vectors

The four bytes of a number are its digits to the base 256, the lowest first, and
any four bytes are the digits of some number. Vectors and bytes therefore
determine each other, but for up to three bytes at the end that fill no number.

The store keeps bytes where its users speak of vectors. A run is followed by the
vectors that were stored last, one for each id: the rows hold their bytes, since
all operations but the one that stores a vector leave every row its bytes and
give new rows none. An id is not given twice, so that a new entity does not come
into the vector of one that is gone.
-/
namespace MemoryGraph

/-! ## Bytes of a number -/

/-- The number that bytes write to the base 256, the lowest first. -/
def Blob.number (b : Blob) : Nat := Nat.ofDigits 256 (b.map UInt8.toNat)

theorem Blob.number_four (b₀ b₁ b₂ b₃ : UInt8) :
    Blob.number [b₀, b₁, b₂, b₃] =
      b₀.toNat + 256 * (b₁.toNat + 256 * (b₂.toNat + 256 * b₃.toNat)) := by
  simp [Blob.number, Nat.ofDigits_cons]

namespace Single

/-- A byte stands above lower bits as a summand. -/
theorem or_shiftLeft_byte {low i : Nat} (hlow : low < 2 ^ i) (hi : i ≤ 24) (b : UInt8) :
    low ||| b.toNat <<< i % 2 ^ 32 = low + b.toNat * 2 ^ i := by
  have hroom : b.toNat * 2 ^ i < 2 ^ 32 :=
    calc b.toNat * 2 ^ i < 2 ^ 8 * 2 ^ i := Nat.mul_lt_mul_of_pos_right b.toNat_lt i.two_pow_pos
      _ ≤ 2 ^ 8 * 2 ^ 24 := Nat.mul_le_mul_left _ (Nat.pow_le_pow_right (by decide) hi)
      _ = 2 ^ 32 := by decide
  rw [Nat.shiftLeft_eq, Nat.mod_eq_of_lt hroom, Nat.mul_comm, Nat.or_comm,
    ← Nat.two_pow_add_eq_or_of_lt hlow, Nat.add_comm]

theorem toNat_ofBytes (b₀ b₁ b₂ b₃ : UInt8) :
    (ofBytes b₀ b₁ b₂ b₃).bits.toNat = Blob.number [b₀, b₁, b₂, b₃] := by
  have h₀ : b₀.toNat < 2 ^ 8 := b₀.toNat_lt
  have h₁ : b₁.toNat < 2 ^ 8 := b₁.toNat_lt
  have h₂ : b₂.toNat < 2 ^ 8 := b₂.toNat_lt
  have htwo : b₀.toNat + b₁.toNat * 2 ^ 8 < 2 ^ 16 := by omega
  have hthree : b₀.toNat + b₁.toNat * 2 ^ 8 + b₂.toNat * 2 ^ 16 < 2 ^ 24 := by omega
  have hbits : (ofBytes b₀ b₁ b₂ b₃).bits.toNat =
      b₀.toNat ||| b₁.toNat <<< 8 % 2 ^ 32 ||| b₂.toNat <<< 16 % 2 ^ 32 |||
        b₃.toNat <<< 24 % 2 ^ 32 := by
    simp [ofBytes]
  rw [hbits, or_shiftLeft_byte h₀ (by decide), or_shiftLeft_byte htwo (by decide),
    or_shiftLeft_byte hthree (by decide), Blob.number_four]
  omega

/-- Any four bytes are the bytes of a number. -/
theorem toBytes_ofBytes (b₀ b₁ b₂ b₃ : UInt8) :
    (ofBytes b₀ b₁ b₂ b₃).toBytes = [b₀, b₁, b₂, b₃] := by
  have hvalue := (toNat_ofBytes b₀ b₁ b₂ b₃).trans (Blob.number_four b₀ b₁ b₂ b₃)
  have h₀ : b₀.toNat < 256 := b₀.toNat_lt
  have h₁ : b₁.toNat < 256 := b₁.toNat_lt
  have h₂ : b₂.toNat < 256 := b₂.toNat_lt
  have h₃ : b₃.toNat < 256 := b₃.toNat_lt
  -- A byte of the pattern is what is left of it above the lower bytes and below the higher ones.
  simp only [toBytes, List.cons.injEq, and_true, ← UInt8.toNat_inj, UInt32.toNat_toUInt8,
    UInt32.toNat_shiftRight, Nat.shiftRight_eq_div_pow, UInt32.reduceToNat, Nat.reduceMod,
    Nat.reducePow, hvalue]
  omega

end Single

/-! ## Bytes of a vector -/

/-- A prefix of bytes that fills numbers of four bytes, and than which no longer one does. -/
structure Blob.LongestWhole (b whole : Blob) : Prop where
  start : whole <+: b
  fills : 4 ∣ whole.length
  longest : ∀ other : Blob, other <+: b → 4 ∣ other.length → other.length ≤ whole.length

namespace Embedding

theorem length_toBlob (v : Embedding) : v.toBlob.length = 4 * v.length := by
  induction v with
  | nil => rfl
  | cons a rest ih =>
    rw [toBlob_cons, List.length_append, ih, List.length_cons, Nat.mul_succ, Nat.add_comm]
    rfl

/-- Nothing is read from bytes that fill no number, and these are fewer than four. -/
theorem ofBlob_of_short {b : Blob}
    (hshort : ∀ b₀ b₁ b₂ b₃ rest, b = b₀ :: b₁ :: b₂ :: b₃ :: rest → False) :
    ofBlob b = [] ∧ b.length < 4 := by
  constructor
  · rw [ofBlob]
    exact hshort
  · rcases b with _ | ⟨b₀, _ | ⟨b₁, _ | ⟨b₂, _ | ⟨b₃, rest⟩⟩⟩⟩
    case cons.cons.cons.cons => exact (hshort b₀ b₁ b₂ b₃ rest rfl).elim
    all_goals simp

/-- Bytes are those of the numbers that are read from them, and fewer than four more. -/
theorem exists_remainder (b : Blob) :
    ∃ rest, (ofBlob b).toBlob ++ rest = b ∧ rest.length < 4 := by
  induction b using ofBlob.induct with
  | case1 b₀ b₁ b₂ b₃ rest ih =>
    obtain ⟨last, hlast, hfew⟩ := ih
    refine ⟨last, ?_, hfew⟩
    rw [ofBlob, toBlob_cons, Single.toBytes_ofBytes, List.append_assoc, hlast]
    rfl
  | case2 b hshort =>
    obtain ⟨hnone, hfew⟩ := ofBlob_of_short hshort
    exact ⟨b, by rw [hnone]; rfl, hfew⟩

theorem longestWhole_toBlob_ofBlob (b : Blob) : b.LongestWhole (ofBlob b).toBlob := by
  obtain ⟨rest, hb, hfew⟩ := exists_remainder b
  have hlength := length_toBlob (ofBlob b)
  refine ⟨⟨rest, hb⟩, hlength ▸ Nat.dvd_mul_right 4 _, ?_⟩
  rintro other hother ⟨count, hcount⟩
  have hle : other.length ≤ (ofBlob b).toBlob.length + rest.length := by
    rw [← List.length_append, hb]
    exact hother.length_le
  omega

/-- Each number is read from four bytes of its own. -/
theorem toNat_getElem_ofBlob (b : Blob) (k : Nat) (h : k < (ofBlob b).length) :
    (ofBlob b)[k].bits.toNat = Blob.number ((b.drop (4 * k)).take 4) := by
  induction b using ofBlob.induct generalizing k with
  | case1 b₀ b₁ b₂ b₃ rest ih =>
    simp only [ofBlob] at h ⊢
    cases k with
    | zero => exact Single.toNat_ofBytes b₀ b₁ b₂ b₃
    | succ k => exact ih k (Nat.lt_of_succ_lt_succ h)
  | case2 b hshort =>
    simp [(ofBlob_of_short hshort).1] at h

end Embedding

/-! ## Operations that store no vector -/

namespace Store

/-- The entities of a store go on with the bytes that they had, and new ones have none. -/
structure LeavesVectors (s after : Store) : Prop where
  next_le : s.nextEntity ≤ after.nextEntity
  row : ∀ e ∈ after.entities,
    (∃ old ∈ s.entities, old.id = e.id ∧ old.embedding = e.embedding) ∨
      (s.nextEntity ≤ e.id ∧ e.embedding = none)

section Operations

variable {s mid after : Store} {now : Timestamp}

/-- What touches no entity leaves all of them their vectors. -/
theorem Retold.leavesVectors (h : s.Retold [] after) : s.LeavesVectors after where
  next_le := h.next_le
  row e he := by
    obtain ⟨old, hold, hkeeps⟩ | ⟨htouched, _⟩ := h.row e he
    · exact .inl ⟨old, hold, hkeeps.id, (hkeeps.told List.not_mem_nil).1⟩
    · cases htouched

namespace LeavesVectors

theorem refl (s : Store) : s.LeavesVectors s := (Retold.refl s).leavesVectors

theorem trans (h : s.LeavesVectors mid) (h' : mid.LeavesVectors after) :
    s.LeavesVectors after := by
  refine ⟨Int.le_trans h.next_le h'.next_le, fun e he => ?_⟩
  obtain ⟨between, hbetween, hid, hvector⟩ | ⟨hnew, hnone⟩ := h'.row e he
  · rw [← hid, ← hvector]
    exact h.row between hbetween
  · exact .inr ⟨Int.le_trans h.next_le hnew, hnone⟩

theorem modifyEntity {id : Id} {change : Entity → Entity} (hid : ∀ e, (change e).id = e.id)
    (hvector : ∀ e, (change e).embedding = e.embedding) :
    s.LeavesVectors (s.modifyEntity id change) := by
  refine ⟨Int.le_refl _, fun e he => ?_⟩
  obtain ⟨old, hold, rfl⟩ := List.mem_map.1 he
  refine .inl ⟨old, hold, ?_⟩
  split
  · exact ⟨(hid old).symm, (hvector old).symm⟩
  · exact ⟨rfl, rfl⟩

theorem of_rows (hentities : after.entities = s.entities)
    (hnext : s.nextEntity ≤ after.nextEntity) : s.LeavesVectors after :=
  (Retold.of_rows hentities hnext).leavesVectors

theorem add {row : Entity} (hid : row.id = s.nextEntity) (hnone : row.embedding = none) :
    s.LeavesVectors { s with entities := s.entities ++ [row] } := by
  refine ⟨Int.le_refl _, fun e he => ?_⟩
  rcases List.mem_append.1 he with he | he
  · exact .inl ⟨e, he, rfl, rfl⟩
  · rw [List.mem_singleton.1 he]
    exact .inr ⟨hid ▸ Int.le_refl _, hnone⟩

theorem appendEntity {input : EntityDraft} {row : Entity}
    (h : s.appendEntity now input = .ok (row, after)) : s.LeavesVectors after := by
  obtain ⟨_, _, hrow, rfl⟩ := appendEntity_eq_ok h
  have hadded : s.LeavesVectors { s with entities := s.entities ++ [row] } :=
    .add (hrow ▸ rfl) (hrow ▸ rfl)
  exact hadded.trans (.of_rows rfl (Int.le_add_one (Int.le_refl _)))

end LeavesVectors

/-! ### Records -/

theorem addEntity_leavesVectors {input : EntityDraft} {e : Entity}
    (h : s.addEntity now input = .ok (e, after)) : s.LeavesVectors after := by
  simp only [addEntity, guard_eq_ok, bind_eq_ok, Prod.exists] at h
  obtain ⟨_, row, first, hrow, rows, second, hrows, _, _, h⟩ := h
  cases h
  have hnoted := (Retold.appendObservations hrows).leavesVectors
  have hcreated := (LeavesVectors.appendEntity hrow).trans hnoted
  exact hcreated.trans (Retold.refreshCount ..).leavesVectors

theorem changeEntity_leavesVectors {id : Id} {update : EntityChange} {e : Entity}
    (h : s.changeEntity now id update = .ok (e, after)) : s.LeavesVectors after := by
  simp only [changeEntity, bind_eq_ok] at h
  obtain ⟨_, _, _, _, _, _, _, _, h⟩ := h
  cases h
  exact .modifyEntity (fun _ => rfl) fun _ => rfl

theorem mergeEntities_leavesVectors {source target : Id} {effect : MergeEffect}
    (h : s.mergeEntities now source target = .ok (effect, after)) : s.LeavesVectors after := by
  simp only [mergeEntities, guard_eq_ok, bind_eq_ok, Prod.exists] at h
  obtain ⟨_, giver, _, taker, _, count, mid, hrepoint, last, hdelete, _, _, h⟩ := h
  cases h
  obtain ⟨hentities, _, hnext⟩ := repointAll_rows hrepoint
  obtain ⟨_, rfl⟩ := deleteEntity_eq_ok.1 hdelete
  have htold : s.LeavesVectors (s.modifyEntity target fun e =>
      { e with aliases := mergedAliases giver taker, updatedAt := now }) :=
    .modifyEntity (fun _ => rfl) fun _ => rfl
  have hlinked : s.LeavesVectors mid :=
    htold.trans (.of_rows hentities (Int.le_of_eq hnext.symm))
  exact (hlinked.trans (Retold.refreshCount ..).leavesVectors).trans
    (Retold.removeEntity ..).leavesVectors

/-! ### Imports -/

theorem Admitted.leavesVectors {node : TreeNode} {decision : Decision} {treeParent : Option Id}
    {effect : NodeEffect} (h : s.Admitted now node decision treeParent effect after)
    (hnext : s.nextEntity ≤ after.nextEntity) : s.LeavesVectors after := by
  cases h with
  | skipped hdecision hthere => exact .refl s
  | @merged target _ _ htarget hfate hentities hadds =>
    have habsorbed : s.LeavesVectors (s.modifyEntity target.id
        (absorbed now target node (after.observationsOf target.id).length)) :=
      .modifyEntity (fun _ => rfl) fun _ => rfl
    exact habsorbed.trans (.of_rows hentities hnext)
  | @created _ row _ _ hdecision hfree hrow hfate hentities hadds =>
    have hadded : s.LeavesVectors { s with entities := s.entities ++ [row] } :=
      .add (hrow ▸ rfl) (hrow ▸ rfl)
    have hcounted (s : Store) (count : Nat) : s.LeavesVectors
        (s.modifyEntity row.id fun e => { e with observationCount := count, updatedAt := now }) :=
      .modifyEntity (fun _ => rfl) fun _ => rfl
    exact (hadded.trans (hcounted _ _)).trans (.of_rows hentities hnext)

end Operations

end Store

theorem Visit.leavesVectors {now : Moment} {decisions : Decisions} (v : Visit now.text decisions) :
    v.before.LeavesVectors v.after := by
  rcases v.cases with ⟨_, hafter, _⟩ | ⟨_, effect, houtcome, _, hadmitted⟩
  · rw [hafter]
    exact .refl _
  · exact hadmitted.leavesVectors (Store.admitNode_writes houtcome).nextLe.entities

theorem Store.runImport_leavesVectors (s : Store) (now : Moment) (document : TreeDocument)
    (decisions : Decisions) (mode : ImportMode) :
    s.LeavesVectors (s.runImport now.text document decisions mode).2 := by
  rw [Store.runImport_eq]
  split
  · exact .refl s
  · exact Store.chained_visits.relates .refl .trans fun v _ => v.leavesVectors

/-! ## Vectors over a run -/

/-- The vectors that were stored last, by the ids of their entities, after an operation: a vector
is stored for an entity that is there, whatever was stored for it before. -/
def Operation.lastStored (s : Store) (last : Id → Option Embedding) :
    Operation → Id → Option Embedding
  | .setEmbedding id v => if s.HasEntity id then Function.update last id (some v) else last
  | _ => last

namespace Store

/-- The vectors that were stored last after a run. -/
def lastStored (s : Store) (last : Id → Option Embedding) :
    List (Moment × Operation) → Id → Option Embedding
  | [] => last
  | (now, operation) :: rest =>
    (operation.outcome now s).lastStored (operation.lastStored s last) rest

/-- The rows of the entities hold the bytes of these vectors, and none of the vectors is for an id
that was not given yet. -/
structure HoldsVectors (s : Store) (last : Id → Option Embedding) : Prop where
  row : ∀ e ∈ s.entities, e.embedding = (last e.id).map Embedding.toBlob
  ungiven : ∀ id, s.nextEntity ≤ id → last id = none

variable {s after : Store} {last : Id → Option Embedding}

theorem holdsVectors_empty : HoldsVectors empty fun _ => none where
  row e he := by cases he
  ungiven _ _ := rfl

theorem LeavesVectors.holdsVectors (h : s.LeavesVectors after) (hs : s.HoldsVectors last) :
    after.HoldsVectors last where
  row e he := by
    obtain ⟨old, hold, hid, hvector⟩ | ⟨hnew, hnone⟩ := h.row e he
    · rw [← hid, ← hvector]
      exact hs.row old hold
    · rw [hnone, hs.ungiven e.id hnew, Option.map_none]
  ungiven id hid := hs.ungiven id (Int.le_trans h.next_le hid)

theorem HoldsVectors.setEmbedding {id : Id} {v : Embedding} (hk : s.Keyed)
    (hs : s.HoldsVectors last) (h : s.setEmbedding id v = .ok after) :
    after.HoldsVectors (Function.update last id (some v)) where
  row e he := by
    obtain ⟨old, hold, hid, _, hvector⟩ := row_of_setEmbedding h he
    rw [hvector, Function.update_apply]
    split
    · rfl
    · rw [← hid]
      exact hs.row old hold
  ungiven other hother := by
    obtain ⟨⟨row, hrow, hid⟩, rfl⟩ := setEmbedding_eq_ok.1 h
    have hlt : id < s.nextEntity := hid ▸ hk.entities.lt_bound row hrow
    rw [Function.update_of_ne (Int.ne_of_gt (Int.lt_of_lt_of_le hlt hother))]
    exact hs.ungiven other hother

end Store

namespace Operation

variable {s after : Store} {now : Moment} {last : Id → Option Embedding} {operation : Operation}

theorem perform_holdsVectors (hk : s.Keyed) (hs : s.HoldsVectors last)
    (h : operation.perform now.text s = .ok after) :
    after.HoldsVectors (operation.lastStored s last) := by
  cases operation with
  | setEmbedding id v =>
    have hthere : s.HasEntity id := (Store.setEmbedding_eq_ok.1 h).1
    rw [lastStored, if_pos hthere]
    exact hs.setEmbedding hk h
  | addEntity input =>
    simp only [perform, bind_eq_ok, Prod.exists] at h
    obtain ⟨_, _, hadd, ⟨⟩⟩ := h
    exact (Store.addEntity_leavesVectors hadd).holdsVectors hs
  | changeEntity id update =>
    simp only [perform, bind_eq_ok, Prod.exists] at h
    obtain ⟨_, _, hchange, ⟨⟩⟩ := h
    exact (Store.changeEntity_leavesVectors hchange).holdsVectors hs
  | mergeEntities source target =>
    simp only [perform, bind_eq_ok, Prod.exists] at h
    obtain ⟨_, _, hmerge, ⟨⟩⟩ := h
    exact (Store.mergeEntities_leavesVectors hmerge).holdsVectors hs
  | runImport document decisions mode =>
    cases h
    exact (s.runImport_leavesVectors now document decisions mode).holdsVectors hs
  | observe | dropObservation | relate | dropRelation | reparent | prune =>
    have htold : s.Retold [] after := perform_retold h
    exact htold.leavesVectors.holdsVectors hs

theorem outcome_holdsVectors (hk : s.Keyed) (hs : s.HoldsVectors last) :
    (operation.outcome now s).HoldsVectors (operation.lastStored s last) := by
  unfold outcome
  split
  · rename_i after h
    exact perform_holdsVectors hk hs h
  · rename_i cause h
    -- Storing a vector is refused only where there is no entity for it.
    have hlast : operation.lastStored s last = last := by
      cases operation with
      | setEmbedding id v =>
        have hnot : ¬ s.HasEntity id := by
          intro hthere
          cases h.symm.trans (Store.setEmbedding_eq_ok.2 ⟨hthere, rfl⟩)
        exact if_neg hnot
      | _ => rfl
    rw [hlast]
    exact hs

end Operation

theorem Store.run_holdsVectors {s : Store} {last : Id → Option Embedding} (hk : s.Keyed)
    (hs : s.HoldsVectors last) (steps : List (Moment × Operation)) :
    (s.run steps).HoldsVectors (s.lastStored last steps) := by
  induction steps generalizing s last with
  | nil => exact hs
  | cons step rest ih =>
    exact ih ((Operation.outcome_writes hk).keeps Store.Write.keyed hk)
      (Operation.outcome_holdsVectors hk hs)

theorem Store.HoldsVectors.withEmbedding {s : Store} {last : Id → Option Embedding}
    (hs : s.HoldsVectors last) :
    s.withEmbedding = s.entities.filterMap fun e => (last e.id).map fun v => (e, v) := by
  refine List.filterMap_congr fun e he => ?_
  rw [hs.row e he, Option.map_map]
  exact Option.map_congr fun v _ => congrArg (e, ·) (Embedding.ofBlob_toBlob v)

/-- Vectors survive as bytes. The bytes of a vector are read back as this vector, with every bit of
its numbers, and no other vector has them. What is read from any bytes has their longest prefix that
fills numbers as its own bytes, four for each number and the lowest first. Whatever is asked of the
graph, its entities are shown with the vectors that were stored for them last, and the bytes that it
holds stay the same when they are read and written again. -/
theorem vectors_survive_as_bytes :
    (∀ v : Embedding, Embedding.ofBlob v.toBlob = v) ∧
    Function.Injective Embedding.toBlob ∧
    (∀ b : Blob, b.LongestWhole (Embedding.ofBlob b).toBlob) ∧
    (∀ (b : Blob) (k : Nat) (h : k < (Embedding.ofBlob b).length),
      (Embedding.ofBlob b)[k].bits.toNat = Blob.number ((b.drop (4 * k)).take 4)) ∧
    ∀ steps : List (Moment × Operation),
      let s := Store.run .empty steps
      let last := Store.lastStored .empty (fun _ => none) steps
      s.withEmbedding = (s.entities.filterMap fun e => (last e.id).map fun v => (e, v)) ∧
      ∀ e ∈ s.entities, ∀ blob ∈ e.embedding, (Embedding.ofBlob blob).toBlob = blob := by
  refine ⟨Embedding.ofBlob_toBlob, Function.LeftInverse.injective Embedding.ofBlob_toBlob,
    Embedding.longestWhole_toBlob_ofBlob, Embedding.toNat_getElem_ofBlob, fun steps => ?_⟩
  have hs := Store.run_holdsVectors Store.keyed_empty Store.holdsVectors_empty steps
  refine ⟨hs.withEmbedding, fun e he blob hblob => ?_⟩
  rw [hs.row e he] at hblob
  obtain ⟨v, _, rfl⟩ := Option.map_eq_some_iff.1 hblob
  rw [Embedding.ofBlob_toBlob]

/-- A vector of a not-a-number, an infinity and a negative zero takes the place of another one, and
stays when its entity takes another one over; bytes that fill two numbers and leave three over. -/
theorem odd_vectors_survive :
    let odd : Embedding := [⟨0x7f800001⟩, ⟨0xff800000⟩, ⟨0x80000000⟩]
    let now : Moment := .ofNanoseconds 0
    let s := Store.run .empty [
      (now, .addEntity { name := "old", entityType := "Note" }),
      (now, .addEntity { name := "new", entityType := "Note" }),
      (now, .setEmbedding 1 [.zero]),
      (now, .setEmbedding 2 [.one, .one]),
      (now, .setEmbedding 2 odd),
      (now, .setEmbedding 3 [.one]),
      (now, .mergeEntities 1 2),
      (now, .addEntity { name := "later", entityType := "Note" }),
      (now, .addEntity { name := "last", entityType := "Note" }),
      (now, .setEmbedding 4 [])]
    let b : Blob := [1, 2, 3, 4, 5, 6, 7, 8, 9, 10, 11]
    s.withEmbedding.map (fun shown => (shown.1.id, shown.2)) = [(2, odd), (4, [])] ∧
    (∃ e ∈ s.entities, ∃ blob ∈ e.embedding, blob.length = 12 ∧
      (Embedding.ofBlob blob).toBlob = blob) ∧
    b.LongestWhole (Embedding.ofBlob b).toBlob ∧
    ∃ h : 1 < (Embedding.ofBlob b).length,
      (Embedding.ofBlob b)[1].bits.toNat = Blob.number [5, 6, 7, 8] := by
  intro odd now s b
  obtain ⟨_, _, hlongest, hnumber, hrun⟩ := vectors_survive_as_bytes
  obtain ⟨hshown, hsame⟩ := hrun _
  have htold : ∃ e ∈ s.entities, ∃ blob ∈ e.embedding, blob.length = 12 := by decide +kernel
  obtain ⟨e, he, blob, hblob, hlength⟩ := htold
  refine ⟨?_, ⟨e, he, blob, hblob, hlength, hsame e he blob hblob⟩, hlongest b, ?_⟩
  · rw [hshown]
    decide +kernel
  · exact ⟨by decide, hnumber b 1 (by decide)⟩

end MemoryGraph
