-- SUMMARY: Handing the relations of one entity over to another, one after the other, collapses those that become alike.
import MemoryGraph.Proofs.Integrity
import Mathlib.Data.Finset.Max

/-!
# Handing relations over

The relations of the entity that goes are handed over one after the other, each
against the table as the ones before it left it. What carries the proof is a
picture of the table midway: relations that still wait stand as they did, and of
the others those that outlive the merge have their new ends. One handover leads
from one such picture to the next, whatever becomes of the relation.
-/
namespace MemoryGraph

open Store

namespace Relation

/-- A relation with `target` at the ends where `source` was. -/
def handOver (source target : Id) (r : Relation) : Relation :=
  { r with
    source := substitute source target r.source
    target := substitute source target r.target }

section

variable (source target : Id) (rows pending : List Relation)

/-- Whether a relation outlives the merge among the rows that do not wait: it does not become a
loop, and none with a lower id becomes like it. -/
def Outlives (r : Relation) : Prop :=
  (r.handOver source target).source ≠ (r.handOver source target).target ∧
  ∀ x ∈ rows, x ∉ pending → (x.handOver source target).triple = (r.handOver source target).triple →
    r.id ≤ x.id

instance (r : Relation) : Decidable (r.Outlives source target rows pending) :=
  inferInstanceAs (Decidable (_ ∧ _))

/-- What the table holds of a relation while the rows `pending` wait to be handed over. -/
def midway (r : Relation) : Option Relation :=
  if r ∈ pending then some r
  else if r.Outlives source target rows pending then some (r.handOver source target)
  else none

end

end Relation

namespace Store

theorem substitute_ne {source target : Id} (hne : source ≠ target) (id : Id) :
    substitute source target id ≠ source := by
  unfold substitute
  split
  · exact hne.symm
  · assumption

theorem HasEntity.substitute {s : Store} {source target id : Id} (h : s.HasEntity id)
    (htarget : s.HasEntity target) : s.HasEntity (substitute source target id) := by
  unfold Store.substitute
  split
  · exact htarget
  · exact h

end Store

namespace Relation

section Midway

variable {source target bound : Id} {rows pending rest : List Relation} {relation r x y : Relation}

theorem handOver_of_apart (h : r.touches source = false) : r.handOver source target = r := by
  have hends : r.source ≠ source ∧ r.target ≠ source := by simpa [touches] using h
  simp [handOver, substitute, hends]

theorem midway_id (h : r.midway source target rows pending = some x) : x.id = r.id := by
  unfold midway at h
  split at h
  · cases h
    rfl
  · split at h
    · cases h
      rfl
    · cases h

theorem midway_ascending (hrows : Ascending Relation.id rows bound) :
    Ascending Relation.id (rows.filterMap (midway source target rows pending)) bound :=
  hrows.filterMap fun _ _ => midway_id

theorem midway_of_mem (h : r ∈ pending) : r.midway source target rows pending = some r :=
  if_pos h

theorem midway_of_outlives (hr : r ∉ pending) (h : r.Outlives source target rows pending) :
    r.midway source target rows pending = some (r.handOver source target) := by
  rw [midway, if_neg hr, if_pos h]

theorem midway_eq_none (hr : r ∉ pending) (h : ¬ r.Outlives source target rows pending) :
    r.midway source target rows pending = none := by
  rw [midway, if_neg hr, if_neg h]

/-- Before anything is handed over the table is as it was. -/
theorem midway_start (hloop : ∀ r ∈ rows, r.source ≠ r.target)
    (htriples : (rows.map triple).Nodup) :
    rows.filterMap (midway source target rows (rows.filter fun r => r.touches source)) = rows := by
  have hstays : ∀ r ∈ rows,
      r.midway source target rows (rows.filter fun r => r.touches source) = some r := by
    intro r hr
    cases htouch : r.touches source with
    | true => exact midway_of_mem (List.mem_filter.2 ⟨hr, htouch⟩)
    | false =>
      have hout : r ∉ rows.filter fun r => r.touches source := by simp [htouch]
      have hsame : r.handOver source target = r := handOver_of_apart htouch
      rw [midway_of_outlives hout, hsame]
      refine ⟨hsame.symm ▸ hloop r hr, fun x hx hxout heq => ?_⟩
      have hxtouch : x.touches source = false := by
        simpa [hx] using hxout
      rw [hsame, handOver_of_apart hxtouch] at heq
      rw [List.inj_on_of_nodup_map htriples hx hr heq]
  rw [List.filterMap_congr hstays, List.filterMap_some]

/-- Among the rows that become like one that is no loop, the lowest outlives the merge. -/
theorem exists_outlives (target : Id) (hx : x ∈ rows) (hwait : x ∉ pending)
    (hloop : (x.handOver source target).source ≠ (x.handOver source target).target) :
    ∃ o ∈ rows, o ∉ pending ∧ o.Outlives source target rows pending ∧
      (o.handOver source target).triple = (x.handOver source target).triple := by
  let alike := rows.toFinset.filter fun y =>
    y ∉ pending ∧ (y.handOver source target).triple = (x.handOver source target).triple
  have hxalike : x ∈ alike := by simp [alike, hx, hwait]
  obtain ⟨o, ho, hlowest⟩ := alike.exists_min_image Relation.id ⟨x, hxalike⟩
  simp only [alike, Finset.mem_filter, List.mem_toFinset] at ho hlowest
  obtain ⟨homem, howait, hsame⟩ := ho
  refine ⟨o, homem, howait, ⟨?_, ?_⟩, hsame⟩
  · obtain ⟨hs, ht, _⟩ := triple_eq_iff.1 hsame
    rw [hs, ht]
    exact hloop
  · intro y hy hywait heq
    exact hlowest y ⟨hy, hywait, heq.trans hsame⟩

/-- Of the rows that become alike only one outlives the merge. -/
theorem Outlives.id_eq (hx : x ∈ rows) (hxwait : x ∉ pending)
    (hxout : x.Outlives source target rows pending) (hy : y ∈ rows) (hywait : y ∉ pending)
    (hyout : y.Outlives source target rows pending)
    (heq : (x.handOver source target).triple = (y.handOver source target).triple) : x.id = y.id :=
  Int.le_antisymm (hxout.2 y hy hywait heq.symm) (hyout.2 x hx hxwait heq)

/-- What a row is midway once one more relation is handed over: that relation goes on with its new
ends if it outlives the merge so far, and the rows above it that it is like are gone. -/
theorem midway_next (hmem : relation ∈ rows) (hnew : relation ∉ rest) :
    y.midway source target rows rest =
      if y = relation then
        if relation.Outlives source target rows rest then some (relation.handOver source target)
        else none
      else if y ∉ rest ∧ relation.id < y.id ∧
          (relation.handOver source target).triple = (y.handOver source target).triple then none
      else y.midway source target rows (relation :: rest) := by
  by_cases hsame : y = relation
  · subst hsame
    rw [if_pos rfl, midway, if_neg hnew]
  rw [if_neg hsame]
  split
  · rename_i habove
    obtain ⟨hwait, hlt, heq⟩ := habove
    refine midway_eq_none hwait fun hout => ?_
    exact absurd hlt (Int.not_lt.2 (hout.2 relation hmem hnew heq))
  · rename_i hfree
    have hwaits : y ∈ relation :: rest ↔ y ∈ rest := by simp [hsame]
    by_cases hwait : y ∈ rest
    · rw [midway_of_mem hwait, midway_of_mem (hwaits.2 hwait)]
    have hiff : y.Outlives source target rows rest ↔
        y.Outlives source target rows (relation :: rest) := by
      refine and_congr_right fun _ => ⟨fun h x hx hxwait => ?_, fun h x hx hxwait heq => ?_⟩
      · exact h x hx fun hin => hxwait (List.mem_cons_of_mem _ hin)
      · by_cases hxsame : x = relation
        · subst hxsame
          by_contra hlt
          exact hfree ⟨hwait, Int.not_le.1 hlt, heq⟩
        · exact h x hx (by simp [hxsame, hxwait]) heq
    unfold midway
    rw [if_neg hwait, if_neg (hwaits.not.2 hwait)]
    exact if_congr hiff rfl rfl

end Midway
end Relation

namespace Store

/-! ## One handover after the other -/

section

variable {s : Store} {source target : Id} {relation x y : Relation} {pending rest : List Relation}

/-- The store while the relations `pending` wait to be handed over. -/
def midway (s : Store) (source target : Id) (pending : List Relation) : Store :=
  { s with
    relations := s.relations.filterMap (Relation.midway source target s.relations pending) }

/-- Relations of `source` that wait to be handed over, in the order of their ids. -/
structure Waiting (s : Store) (source : Id) (pending : List Relation) : Prop where
  rows : ∀ r ∈ pending, r ∈ s.relations
  touches : ∀ r ∈ pending, r.touches source = true
  ascending : pending.Pairwise fun a b => a.id < b.id

theorem Waiting.tail (h : s.Waiting source (relation :: rest)) : s.Waiting source rest where
  rows r hr := h.rows r (List.mem_cons_of_mem _ hr)
  touches r hr := h.touches r (List.mem_cons_of_mem _ hr)
  ascending := h.ascending.of_cons

theorem Waiting.lt_rest (h : s.Waiting source (relation :: rest)) (hx : x ∈ rest) :
    relation.id < x.id :=
  List.rel_of_pairwise_cons h.ascending hx

theorem Waiting.not_mem_rest (h : s.Waiting source (relation :: rest)) : relation ∉ rest :=
  fun hmem => Int.lt_irrefl _ (h.lt_rest hmem)

theorem waiting_relationsAt (hk : s.Keyed) : s.Waiting source (s.relationsAt source) where
  rows _ hr := (List.mem_filter.1 hr).1
  touches _ hr := (List.mem_filter.1 hr).2
  ascending := hk.relations.pairwise.filter _

/-- What stands where a relation is to go has been handed over already: relations that wait still
have `source` at an end. -/
theorem handed_of_links (hne : source ≠ target) (hw : s.Waiting source pending)
    (hy : y ∈ (s.midway source target pending).relations)
    (hlinks : y.triple = (relation.handOver source target).triple) :
    ∃ o ∈ s.relations, o ∉ pending ∧ o.Outlives source target s.relations pending ∧
      y = o.handOver source target := by
  obtain ⟨o, ho, hmidway⟩ := List.mem_filterMap.1 hy
  unfold Relation.midway at hmidway
  split at hmidway
  · rename_i hwaits
    obtain rfl := Option.some.inj hmidway
    obtain ⟨hsource, htarget, _⟩ := Relation.triple_eq_iff.1 hlinks
    have htouches := hw.touches o hwaits
    simp only [Relation.touches, Bool.or_eq_true, decide_eq_true_eq, hsource, htarget] at htouches
    rcases htouches with h | h <;> exact absurd h (substitute_ne hne _)
  · rename_i hhanded
    split at hmidway
    · rename_i hout
      exact ⟨o, ho, hhanded, hout, (Option.some.inj hmidway).symm⟩
    · cases hmidway

theorem mem_midway_of_outlives (hx : x ∈ s.relations) (hhanded : x ∉ pending)
    (hout : x.Outlives source target s.relations pending) :
    x.handOver source target ∈ (s.midway source target pending).relations :=
  List.mem_filterMap.2 ⟨x, hx, Relation.midway_of_outlives hhanded hout⟩

theorem mem_midway_of_waiting (target : Id) (hw : s.Waiting source pending) (hx : x ∈ pending) :
    x ∈ (s.midway source target pending).relations :=
  List.mem_filterMap.2 ⟨x, hw.rows x hx, Relation.midway_of_mem hx⟩

/-- The places of the handed over rows are free when looking there finds nothing. -/
theorem no_alike_of_free
    (hloop : (relation.handOver source target).source ≠ (relation.handOver source target).target)
    (hfree : (s.midway source target pending).relationBetween?
      (relation.handOver source target).source (relation.handOver source target).target
      relation.relationType = none)
    (hx : x ∈ s.relations) (hhanded : x ∉ pending) :
    (x.handOver source target).triple ≠ (relation.handOver source target).triple := by
  intro heq
  obtain ⟨hsource, htarget, htype⟩ := Relation.triple_eq_iff.1 heq
  obtain ⟨o, ho, hohanded, hout, hsame⟩ := Relation.exists_outlives target hx hhanded
    (by rwa [hsource, htarget])
  obtain ⟨hs, ht, hty⟩ := Relation.triple_eq_iff.1 (hsame.trans heq)
  exact relationBetween?_eq_none.1 hfree _ (mem_midway_of_outlives ho hohanded hout) hs ht hty

/-- Relations that wait have higher ids: they do not decide whether the next one outlives the
merge. -/
theorem Waiting.outlives_iff (h : s.Waiting source (relation :: rest)) :
    relation.Outlives source target s.relations rest ↔
      relation.Outlives source target s.relations [] := by
  refine and_congr_right fun _ => ⟨fun hlow x hx _ heq => ?_, fun hlow x hx _ heq => ?_⟩
  · by_cases hrest : x ∈ rest
    · exact Int.le_of_lt (h.lt_rest hrest)
    · exact hlow x hx hrest heq
  · exact hlow x hx List.not_mem_nil heq

theorem midway_remove (id : Id) :
    ((s.midway source target pending).removeRelation id).relations =
      s.relations.filterMap fun y =>
        if y.id = id then none else y.midway source target s.relations pending := by
  show List.filter _ (List.filterMap _ _) = _
  rw [List.filter_filterMap]
  refine List.filterMap_congr fun y _ => ?_
  cases hmidway : y.midway source target s.relations pending with
  | none => simp
  | some x =>
    have hid := Relation.midway_id hmidway
    by_cases hremoved : y.id = id <;> simp [hid, hremoved]

theorem length_midway_remove (hk : s.Keyed)
    (hy : y ∈ (s.midway source target pending).relations) :
    ((s.midway source target pending).removeRelation y.id).relations.length + 1 =
      (s.midway source target pending).relations.length :=
  (Relation.midway_ascending hk.relations).length_remove hy

/-- Dropping the next relation, when it does not outlive the merge and no row above it gives way. -/
theorem midway_drop (hk : s.Keyed) (hw : s.Waiting source (relation :: rest))
    (hgone : ¬ relation.Outlives source target s.relations rest)
    (habove : ∀ y ∈ s.relations, y ∉ rest → relation.id < y.id →
      (relation.handOver source target).triple = (y.handOver source target).triple →
      ¬ y.Outlives source target s.relations (relation :: rest)) :
    (s.midway source target (relation :: rest)).removeRelation relation.id =
      s.midway source target rest := by
  have hmem := hw.rows relation List.mem_cons_self
  have hrelations :
      ((s.midway source target (relation :: rest)).removeRelation relation.id).relations =
        (s.midway source target rest).relations := by
    rw [midway_remove]
    refine List.filterMap_congr fun y hy => ?_
    rw [Relation.midway_next hmem hw.not_mem_rest]
    by_cases hsame : y = relation
    · simp [hsame, hgone]
    have hid : y.id ≠ relation.id := fun hid => hsame (hk.relations.unique hy hmem hid)
    rw [if_neg hid, if_neg hsame]
    split
    · rename_i hlike
      exact Relation.midway_eq_none (by simp [hsame, hlike.1])
        (habove y hy hlike.1 hlike.2.1 hlike.2.2)
    · rfl
  exact congrArg (fun relations => { s with relations }) hrelations

/-- Giving the next relation its new ends, in a table whose other rows are as they come next. -/
theorem map_redirect (hk : s.Keyed) (hw : s.Waiting source (relation :: rest))
    (hout : relation.Outlives source target s.relations rest) {row : Relation → Option Relation}
    (hself : row relation = some relation)
    (hothers : ∀ y ∈ s.relations, y ≠ relation →
      row y = y.midway source target s.relations rest) :
    ((s.relations.filterMap row).map fun r =>
      if r.id = relation.id then
        { r with
          source := (relation.handOver source target).source
          target := (relation.handOver source target).target }
      else r) = (s.midway source target rest).relations := by
  have hmem := hw.rows relation List.mem_cons_self
  rw [List.map_filterMap]
  refine List.filterMap_congr fun y hy => ?_
  by_cases hsame : y = relation
  · rw [hsame, hself, Relation.midway_of_outlives hw.not_mem_rest hout]
    simp [Relation.handOver]
  · rw [hothers y hy hsame]
    have hid : y.id ≠ relation.id := fun hid => hsame (hk.relations.unique hy hmem hid)
    cases hmidway : y.midway source target s.relations rest with
    | none => rfl
    | some x => simp [Relation.midway_id hmidway, hid]

theorem redirect_midway (hk : s.Keyed) (hl : s.Linked) (htarget : s.HasEntity target)
    (hw : s.Waiting source (relation :: rest))
    (hout : relation.Outlives source target s.relations rest) {t : Store}
    {row : Relation → Option Relation} (ht : t = { s with relations := s.relations.filterMap row })
    (hself : row relation = some relation)
    (hothers : ∀ y ∈ s.relations, y ≠ relation →
      row y = y.midway source target s.relations rest)
    (hfree : ∀ y ∈ t.relations, y.id ≠ relation.id →
      y.triple ≠ (relation.handOver source target).triple) :
    t.redirectRelation relation (relation.handOver source target).source
        (relation.handOver source target).target = .ok (s.midway source target rest) ∧
      (s.midway source target rest).relations.length = t.relations.length := by
  subst ht
  have hmem := hw.rows relation List.mem_cons_self
  have hrelations := map_redirect hk hw hout hself hothers
  constructor
  · rw [redirectRelation_of_free]
    · exact congrArg (fun relations => Except.ok { s with relations }) hrelations
    · intro y hy hid hsource htarget' htype
      exact hfree y hy hid (Relation.triple_eq_iff.2 ⟨hsource, htarget', htype⟩)
    · exact (hl.source relation hmem).substitute htarget
    · exact (hl.target relation hmem).substitute htarget
  · rw [← hrelations, List.length_map]

/-! ### The outcomes of a handover -/

/-- A relation that becomes a loop is dropped. -/
theorem midway_loop (hk : s.Keyed) (hw : s.Waiting source (relation :: rest))
    (hloop : (relation.handOver source target).source = (relation.handOver source target).target) :
    ¬ relation.Outlives source target s.relations rest ∧
      (s.midway source target (relation :: rest)).removeRelation relation.id =
        s.midway source target rest := by
  have hgone : ¬ relation.Outlives source target s.relations rest := fun h => h.1 hloop
  refine ⟨hgone, midway_drop hk hw hgone fun y _ _ _ heq hout => ?_⟩
  obtain ⟨hs, ht, _⟩ := Relation.triple_eq_iff.1 heq
  exact hout.1 (hs.symm.trans (hloop.trans ht))

/-- A relation whose new place is free takes it. -/
theorem midway_free (hk : s.Keyed) (hl : s.Linked) (htarget : s.HasEntity target)
    (hw : s.Waiting source (relation :: rest))
    (hloop : (relation.handOver source target).source ≠ (relation.handOver source target).target)
    (hfind : (s.midway source target (relation :: rest)).relationBetween?
      (relation.handOver source target).source (relation.handOver source target).target
      relation.relationType = none) :
    relation.Outlives source target s.relations rest ∧
      (s.midway source target (relation :: rest)).redirectRelation relation
        (relation.handOver source target).source (relation.handOver source target).target =
          .ok (s.midway source target rest) ∧
      (s.midway source target rest).relations.length =
        (s.midway source target (relation :: rest)).relations.length := by
  have hmem := hw.rows relation List.mem_cons_self
  have hout : relation.Outlives source target s.relations rest := by
    refine ⟨hloop, fun x hx hrest heq => ?_⟩
    by_cases hsame : x = relation
    · exact Int.le_of_eq (congrArg Relation.id hsame.symm)
    · exact absurd heq (no_alike_of_free hloop hfind hx (by simp [hsame, hrest]))
  refine ⟨hout, redirect_midway hk hl htarget hw hout rfl
    (Relation.midway_of_mem List.mem_cons_self) ?_ ?_⟩
  · intro y hy hsame
    rw [Relation.midway_next hmem hw.not_mem_rest, if_neg hsame, if_neg]
    rintro ⟨hrest, _, heq⟩
    exact no_alike_of_free hloop hfind hy (by simp [hsame, hrest]) heq.symm
  · intro y hy _ heq
    obtain ⟨hs, ht, hty⟩ := Relation.triple_eq_iff.1 heq
    exact relationBetween?_eq_none.1 hfind y hy hs ht hty

/-- A relation is dropped when a lower one has its new place. -/
theorem midway_lower (hk : s.Keyed) (hw : s.Waiting source (relation :: rest)) {o : Relation}
    (ho : o ∈ s.relations) (hhanded : o ∉ relation :: rest)
    (heq : (o.handOver source target).triple = (relation.handOver source target).triple)
    (hlower : o.id < relation.id) :
    ¬ relation.Outlives source target s.relations rest ∧
      (s.midway source target (relation :: rest)).removeRelation relation.id =
        s.midway source target rest := by
  have hrest : o ∉ rest := fun hin => hhanded (List.mem_cons_of_mem _ hin)
  have hgone : ¬ relation.Outlives source target s.relations rest :=
    fun hout => absurd hlower (Int.not_lt.2 (hout.2 o ho hrest heq))
  refine ⟨hgone, midway_drop hk hw hgone fun y _ _ habove hlike hout => ?_⟩
  have hle := hout.2 o ho hhanded (heq.trans hlike)
  exact absurd (Int.lt_trans hlower habove) (Int.not_lt.2 hle)

/-- A relation takes its new place from a higher one. -/
theorem midway_higher (hk : s.Keyed) (hl : s.Linked) (hne : source ≠ target)
    (htarget : s.HasEntity target) (hw : s.Waiting source (relation :: rest)) {o : Relation}
    (ho : o ∈ s.relations) (hhanded : o ∉ relation :: rest)
    (hoout : o.Outlives source target s.relations (relation :: rest))
    (heq : (o.handOver source target).triple = (relation.handOver source target).triple)
    (hhigher : ¬ o.id < relation.id) :
    relation.Outlives source target s.relations rest ∧
      ((s.midway source target (relation :: rest)).removeRelation o.id).redirectRelation relation
        (relation.handOver source target).source (relation.handOver source target).target =
          .ok (s.midway source target rest) ∧
      (s.midway source target rest).relations.length + 1 =
        (s.midway source target (relation :: rest)).relations.length := by
  have hmem := hw.rows relation List.mem_cons_self
  have hdiffer : relation.id ≠ o.id := fun hid =>
    hhanded (hk.relations.unique hmem ho hid ▸ List.mem_cons_self)
  have hlt : relation.id < o.id := lt_of_le_of_ne (Int.not_lt.1 hhigher) hdiffer
  have hout : relation.Outlives source target s.relations rest := by
    obtain ⟨hs, ht, _⟩ := Relation.triple_eq_iff.1 heq
    refine ⟨by rw [← hs, ← ht]; exact hoout.1, fun x hx hrest hlike => ?_⟩
    by_cases hsame : x = relation
    · exact Int.le_of_eq (congrArg Relation.id hsame.symm)
    · exact Int.le_of_lt (lt_of_lt_of_le hlt
        (hoout.2 x hx (by simp [hsame, hrest]) (hlike.trans heq.symm)))
  have hremoved : (s.midway source target (relation :: rest)).removeRelation o.id =
      { s with relations := s.relations.filterMap fun y =>
          if y.id = o.id then none
          else y.midway source target s.relations (relation :: rest) } :=
    congrArg (fun relations => { s with relations }) (midway_remove o.id)
  -- Apart from the relation itself the table without `o` is the one that comes next.
  have hself : (if relation.id = o.id then none
      else relation.midway source target s.relations (relation :: rest)) = some relation := by
    rw [if_neg hdiffer, Relation.midway_of_mem List.mem_cons_self]
  have hothers : ∀ y ∈ s.relations, y ≠ relation →
      (if y.id = o.id then none else y.midway source target s.relations (relation :: rest)) =
        y.midway source target s.relations rest := by
    intro y hy hsame
    rw [Relation.midway_next hmem hw.not_mem_rest, if_neg hsame]
    by_cases hid : y.id = o.id
    · obtain rfl := hk.relations.unique hy ho hid
      have hrest : y ∉ rest := fun hin => hhanded (List.mem_cons_of_mem _ hin)
      rw [if_pos hid, if_pos ⟨hrest, hlt, heq.symm⟩]
    rw [if_neg hid]
    split
    · rename_i hlike
      obtain ⟨hrest, _, hlike⟩ := hlike
      have hyhanded : y ∉ relation :: rest := by simp [hsame, hrest]
      exact Relation.midway_eq_none hyhanded fun hyout =>
        hid (hyout.id_eq hy hyhanded ho hhanded hoout (hlike.symm.trans heq.symm))
    · rfl
  have hfree : ∀ y ∈ ((s.midway source target (relation :: rest)).removeRelation o.id).relations,
      y.id ≠ relation.id → y.triple ≠ (relation.handOver source target).triple := by
    intro y hy _ hlike
    obtain ⟨hy, hid⟩ := List.mem_filter.1 hy
    obtain ⟨z, hz, hzhanded, hzout, rfl⟩ := handed_of_links hne hw hy hlike
    have hsame : z.id = o.id := hzout.id_eq hz hzhanded ho hhanded hoout (hlike.trans heq.symm)
    simp [Relation.handOver, hsame] at hid
  obtain ⟨hok, hlength⟩ := redirect_midway hk hl htarget hw hout hremoved hself hothers hfree
  have hone := length_midway_remove (y := o.handOver source target) hk
    (mem_midway_of_outlives ho hhanded hoout)
  exact ⟨hout, hok, hlength ▸ hone⟩

/-- What handing over one relation adds to the counts: it is kept or not, and the rows that are
gone are dropped. -/
structure Tallied (before after : Store) (kept : Nat) (count count' : Repointed) : Prop where
  kept : count'.kept = count.kept + kept
  dropped : count'.dropped + after.relations.length = count.dropped + before.relations.length

/-- Handing over the next relation leads from one table midway to the next. -/
theorem repointOne_midway (hk : s.Keyed) (hl : s.Linked) (hne : source ≠ target)
    (htarget : s.HasEntity target) (hw : s.Waiting source (relation :: rest)) (count : Repointed) :
    ∃ count', (s.midway source target (relation :: rest)).repointOne source target relation count =
        .ok (count', s.midway source target rest) ∧
      Tallied (s.midway source target (relation :: rest)) (s.midway source target rest)
        (if relation.Outlives source target s.relations rest then 1 else 0) count count' := by
  have hstands := mem_midway_of_waiting target hw List.mem_cons_self
  have hone := length_midway_remove hk hstands
  -- A relation that is dropped is the only row that goes.
  have hdropped (hgone : ¬ relation.Outlives source target s.relations rest)
      (hremove : (s.midway source target (relation :: rest)).removeRelation relation.id =
        s.midway source target rest) :
      Tallied (s.midway source target (relation :: rest)) (s.midway source target rest)
        (if relation.Outlives source target s.relations rest then 1 else 0) count
        { count with dropped := count.dropped + 1 } := by
    rw [if_neg hgone]
    refine ⟨rfl, ?_⟩
    rw [← hremove, ← hone]
    dsimp only
    omega
  unfold repointOne
  dsimp only
  split
  · rename_i hloop
    obtain ⟨hgone, hremove⟩ := midway_loop hk hw hloop
    rw [hremove]
    exact ⟨_, rfl, hdropped hgone hremove⟩
  rename_i hloop
  split
  · rename_i hfind
    obtain ⟨hout, hredirect, hlength⟩ := midway_free hk hl htarget hw hloop hfind
    refine ⟨{ count with kept := count.kept + 1 }, ?_, ?_, ?_⟩
    · exact bind_eq_ok.2 ⟨_, hredirect, rfl⟩
    · rw [if_pos hout]
    · rw [hlength]
  · rename_i other hfind
    have hlinks : other.triple = (relation.handOver source target).triple :=
      Relation.triple_eq_iff.2 (relationBetween?_links hfind)
    obtain ⟨o, ho, hhanded, hoout, rfl⟩ :=
      handed_of_links hne hw (mem_of_relationBetween? hfind) hlinks
    split
    · rename_i hlower
      obtain ⟨hgone, hremove⟩ := midway_lower hk hw ho hhanded hlinks hlower
      rw [hremove]
      exact ⟨_, rfl, hdropped hgone hremove⟩
    · rename_i hhigher
      obtain ⟨hout, hredirect, hlength⟩ :=
        midway_higher hk hl hne htarget hw ho hhanded hoout hlinks hhigher
      refine ⟨{ kept := count.kept + 1, dropped := count.dropped + 1 }, ?_, ?_, ?_⟩
      · exact bind_eq_ok.2 ⟨_, hredirect, rfl⟩
      · rw [if_pos hout]
      · rw [← hlength]
        dsimp only
        omega

/-- Handing over all relations that wait leads to the table in which none waits. -/
theorem repointAll_midway (hk : s.Keyed) (hl : s.Linked) (hne : source ≠ target)
    (htarget : s.HasEntity target) (hw : s.Waiting source pending) (count : Repointed) :
    ∃ count', repointAll source target pending count (s.midway source target pending) =
        .ok (count', s.midway source target []) ∧
      Tallied (s.midway source target pending) (s.midway source target [])
        (pending.countP fun r => r.Outlives source target s.relations []) count count' := by
  induction pending generalizing count with
  | nil => exact ⟨count, rfl, rfl, rfl⟩
  | cons relation rest ih =>
    obtain ⟨mid, hone, hmid⟩ := repointOne_midway hk hl hne htarget hw count
    obtain ⟨count', hrest, hcount⟩ := ih hw.tail mid
    refine ⟨count', bind_eq_ok.2 ⟨_, hone, hrest⟩, ?_, ?_⟩
    · rw [hcount.kept, hmid.kept, List.countP_cons, if_congr hw.outlives_iff rfl rfl]
      simp only [decide_eq_true_eq]
      omega
    · rw [hcount.dropped, hmid.dropped]

/-! ### When all are handed over -/

theorem mem_midway_nil : y ∈ (s.midway source target []).relations ↔
    ∃ r ∈ s.relations, r.Outlives source target s.relations [] ∧ y = r.handOver source target := by
  constructor
  · intro hy
    obtain ⟨r, hr, hmidway⟩ := List.mem_filterMap.1 hy
    by_cases hout : r.Outlives source target s.relations []
    · rw [Relation.midway_of_outlives List.not_mem_nil hout] at hmidway
      exact ⟨r, hr, hout, (Option.some.inj hmidway).symm⟩
    · rw [Relation.midway_eq_none List.not_mem_nil hout] at hmidway
      cases hmidway
  · rintro ⟨r, hr, hout, rfl⟩
    exact mem_midway_of_outlives hr List.not_mem_nil hout

theorem midway_relationsAt (hl : s.Linked) : s.midway source target (s.relationsAt source) = s :=
  congrArg (fun relations => { s with relations }) (Relation.midway_start hl.no_loop hl.triples)

end
end Store
end MemoryGraph
