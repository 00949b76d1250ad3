-- SUMMARY: Merging several entities into one gives the same graph in whatever order they are merged.
import MemoryGraph.Proofs.Count
import MemoryGraph.Proofs.MergedAliases

/-!
# The order of merges

One merge collapses the relations: ends move, loops go, and of those that become
alike the one with the lowest id stays. Collapsing what was collapsed is
collapsing once, along both moves, since the lowest of those that become alike
in the end is also the lowest of those that become alike on the way. Merging one
entity after the other therefore moves all of them to the target at once, and a
move does not know an order.
-/
namespace MemoryGraph

open Store

/-! ## Moves -/

/-- The id `target` in place of those of a list. -/
def Store.gather (ids : List Id) (target id : Id) : Id := if id ∈ ids then target else id

namespace Store

variable {source target : Id} {ids : List Id}

@[simp] theorem gather_nil (target id : Id) : gather [] target id = id := rfl

/-- Gathering ids is putting the target in the place of one after the other. -/
theorem gather_cons (source : Id) (ids : List Id) (target id : Id) :
    gather (source :: ids) target id = gather ids target (substitute source target id) := by
  by_cases hid : id = source
  · simp [gather, substitute, hid]
  · simp [gather, substitute, hid]

theorem gather_singleton (source target : Id) :
    gather [source] target = substitute source target := by
  funext id
  simp [gather, substitute]

theorem gather_perm {ids' : List Id} (h : ids.Perm ids') (target : Id) :
    gather ids target = gather ids' target := by
  funext id
  simp [gather, h.mem_iff]

end Store

namespace Relation

/-- A relation with moved ends. -/
def along (move : Id → Id) (r : Relation) : Relation :=
  { r with source := move r.source, target := move r.target }

/-- Whether a relation remains among rows whose ends move: it does not become a loop, and none with
a lower id becomes like it. -/
structure Remains (move : Id → Id) (rows : List Relation) (r : Relation) : Prop where
  no_loop : (r.along move).source ≠ (r.along move).target
  lowest : ∀ x ∈ rows, (x.along move).triple = (r.along move).triple → r.id ≤ x.id

/-- The rows `after` are those of `rows` that remain, with moved ends. -/
def Collapses (move : Id → Id) (rows after : List Relation) : Prop :=
  ∀ row, row ∈ after ↔ ∃ r ∈ rows, r.Remains move rows ∧ row = r.along move

variable {move : Id → Id} {rows mid after : List Relation} {source target : Id} {r x : Relation}

theorem remains_iff_outlives :
    r.Remains (substitute source target) rows ↔ r.Outlives source target rows [] :=
  ⟨fun h => ⟨h.no_loop, fun x hx _ => h.lowest x hx⟩,
    fun h => ⟨h.1, fun x hx => h.2 x hx List.not_mem_nil⟩⟩

/-- Relations that become alike by one move are alike after a further one. -/
theorem triple_along {move' : Id → Id} (h : (x.along move).triple = (r.along move).triple) :
    (x.along (move' ∘ move)).triple = (r.along (move' ∘ move)).triple := by
  obtain ⟨hsource, htarget, htype⟩ := triple_eq_iff.1 h
  exact triple_eq_iff.2 ⟨congrArg move' hsource, congrArg move' htarget, htype⟩

/-- Where nothing moves, a table without loops and repetitions stays as it is. -/
theorem collapses_still (hloop : ∀ r ∈ rows, r.source ≠ r.target)
    (htriples : (rows.map triple).Nodup) : Collapses (fun id => id) rows rows := by
  intro row
  constructor
  · intro hrow
    refine ⟨row, hrow, ⟨hloop row hrow, fun x hx halike => ?_⟩, rfl⟩
    rw [List.inj_on_of_nodup_map htriples hrow hx halike.symm]
  · rintro ⟨r, hr, _, rfl⟩
    exact hr

/-- Collapsing what a merge collapsed is collapsing once, along both moves. -/
theorem Collapses.after_merge (hmid : Collapses (substitute source target) rows mid)
    (h : Collapses move mid after) : Collapses (move ∘ substitute source target) rows after := by
  intro row
  rw [h row]
  constructor
  · rintro ⟨m, hm, hremains, rfl⟩
    obtain ⟨r, hr, _, rfl⟩ := (hmid m).1 hm
    refine ⟨r, hr, ⟨hremains.no_loop, fun x hx halike => ?_⟩, rfl⟩
    -- A row that becomes like `r` in the end is no loop on the way, so that one like it remains.
    obtain ⟨hsource, htarget, _⟩ := triple_eq_iff.1 halike
    have hloop : (x.handOver source target).source ≠ (x.handOver source target).target :=
      fun hloop => hremains.no_loop (hsource.symm.trans ((congrArg move hloop).trans htarget))
    obtain ⟨o, ho, _, hout, hsame⟩ := exists_outlives target hx List.not_mem_nil hloop
    have hlower := hremains.lowest _ ((hmid _).2 ⟨o, ho, remains_iff_outlives.2 hout, rfl⟩)
      ((triple_along hsame).trans halike)
    exact Int.le_trans hlower (hout.2 x hx List.not_mem_nil hsame.symm)
  · rintro ⟨r, hr, hremains, rfl⟩
    have hkept : r.Remains (substitute source target) rows :=
      ⟨fun hloop => hremains.no_loop (congrArg move hloop),
        fun x hx halike => hremains.lowest x hx (triple_along halike)⟩
    refine ⟨_, (hmid _).2 ⟨r, hr, hkept, rfl⟩, ⟨hremains.no_loop, ?_⟩, rfl⟩
    intro m hm halike
    obtain ⟨x, hx, _, rfl⟩ := (hmid m).1 hm
    exact hremains.lowest x hx halike

end Relation

namespace Store

variable {s mid after : Store} {target : Id}

/-! ## Merging several entities -/

/-- Merge entities into `target`, one after the other, each at its moment. -/
def mergeAll (target : Id) : List (Moment × Id) → Store → Except Refusal Store
  | [], s => .ok s
  | (now, source) :: rest, s => do
    let (_, s) ← s.mergeEntities now.text source target
    mergeAll target rest s

/-- What merging the entities `ids` into `target` makes of the tables, whatever the order. -/
structure Gathered (target : Id) (ids : List Id) (s after : Store) : Prop where
  relations : Relation.Collapses (gather ids target) s.relations after.relations
  observations : after.observations = s.observations.map fun o =>
    { o with entityId := gather ids target o.entityId }
  entities : after.entities.map Entity.id = (s.entities.map Entity.id).filter fun id => id ∉ ids
  others : ∀ id, id ≠ target → id ∉ ids → after.entity? id = s.entity? id
  /-- The aliases of the target become its own, those of the merged entities and their names. -/
  aliases : ∀ taker merged, s.entity? target = some taker → after.entity? target = some merged →
    ∀ key, key ∈ merged.aliasKeys ↔ key ∈ taker.aliasKeys ∨
      ∃ id ∈ ids, ∃ giver, s.entity? id = some giver ∧
        (key ∈ giver.aliasKeys ∨ key ∈ aliasKeys giver.name)

namespace Gathered

variable {ids : List Id} {source : Id}

theorem refl (hl : s.Linked) (target : Id) : Gathered target [] s s where
  relations := Relation.collapses_still hl.no_loop hl.triples
  observations := by simp
  entities := by simp
  others := fun _ _ _ => rfl
  aliases := by
    rintro taker merged htaker hmerged key
    cases htaker.symm.trans hmerged
    simp

theorem hasEntity (h : Gathered target ids s after) {id : Id} :
    after.HasEntity id ↔ s.HasEntity id ∧ id ∉ ids := by
  simp [hasEntity_iff_mem_ids, h.entities]

theorem of_merge {now : Timestamp} {effect : MergeEffect} (hs : s.Sound)
    (h : s.mergeEntities now source target = .ok (effect, mid)) (hne : source ≠ target)
    (hsource : s.HasEntity source) (htarget : s.HasEntity target) :
    Gathered target [source] s mid := by
  obtain ⟨effect', mid', hok, hrelations, hobservations, hentities, _⟩ :=
    mergeEntities_eq_ok now hs hne hsource htarget
  cases h.symm.trans hok
  have hk := (hs.writes (mergeEntities_writes hs.keyed h)).keyed
  constructor
  case relations =>
    intro row
    rw [gather_singleton, hrelations, mem_midway_nil]
    simp only [Relation.remains_iff_outlives]
    rfl
  case observations =>
    rw [hobservations, gather_singleton]
    refine List.map_congr_left fun o _ => ?_
    unfold substitute
    split <;> rfl
  case entities =>
    have hid : ∀ e : Entity, (if e.id = target then
        { e with
          aliases := effect.aliases
          observationCount := (mid.observationsOf target).length
          updatedAt := now }
      else e).id = e.id := by
      intro e
      split <;> rfl
    rw [hentities, List.map_map, List.filter_map]
    simp [Function.comp_def, hid]
  case others =>
    intro id htaker hgiver
    ext e
    rw [hk.entity?_eq_some, hs.keyed.entity?_eq_some, hentities]
    simp only [List.mem_map, List.mem_filter]
    constructor
    · rintro ⟨⟨row, ⟨hrow, _⟩, rfl⟩, hid⟩
      split at hid
      · exact absurd (hid.symm.trans ‹_›) htaker
      · rename_i happart
        rw [if_neg happart]
        exact ⟨hrow, hid⟩
    · rintro ⟨he, rfl⟩
      exact ⟨⟨e, ⟨he, by simpa using hgiver⟩, if_neg htaker⟩, rfl⟩
  case aliases =>
    intro taker merged htaker hmerged key
    obtain ⟨giver, hgiver⟩ := hsource.exists_entity?
    rw [entity?_of_mergeEntities hs h hne hgiver htaker] at hmerged
    have hname : giver.name ≠ taker.name := by
      apply hs.named.name_ne (mem_of_entity? hgiver) (mem_of_entity? htaker)
      rwa [entity?_id hgiver, entity?_id htaker]
    rw [mem_aliasKeys_of_mergedAliases hname (Option.some.inj hmerged ▸ rfl)]
    simp [hgiver]

/-- One merge and then others. -/
theorem cons (hfirst : Gathered target [source] s mid) (hrest : Gathered target ids mid after)
    (hsource : source ∉ ids) (htarget : target ∉ source :: ids) :
    Gathered target (source :: ids) s after := by
  have hmove : gather (source :: ids) target = gather ids target ∘ gather [source] target := by
    funext id
    rw [gather_singleton]
    exact gather_cons source ids target id
  constructor
  case relations =>
    have hcollapse := hfirst.relations
    rw [gather_singleton] at hmove hcollapse
    exact hmove ▸ hcollapse.after_merge hrest.relations
  case observations =>
    rw [hrest.observations, hfirst.observations, List.map_map, hmove]
    rfl
  case entities =>
    rw [hrest.entities, hfirst.entities, List.filter_filter]
    refine List.filter_congr fun id _ => ?_
    simp [Bool.and_comm]
  case others =>
    intro id htaker hgiver
    rw [List.mem_cons, not_or] at hgiver
    rw [hrest.others id htaker hgiver.2, hfirst.others id htaker (by simpa using hgiver.1)]
  case aliases =>
    intro taker merged htaker hmerged key
    obtain ⟨between, hbetween⟩ : ∃ e, mid.entity? target = some e := by
      have hstays := (hrest.hasEntity.1 (hasEntity_of_entity? hmerged)).1
      exact hstays.exists_entity?
    have hsame : ∀ id ∈ ids, mid.entity? id = s.entity? id := by
      intro id hid
      refine hfirst.others id ?_ ?_
      · rintro rfl
        exact htarget (List.mem_cons_of_mem _ hid)
      · rintro hin
        exact hsource (List.mem_singleton.1 hin ▸ hid)
    rw [hrest.aliases between merged hbetween hmerged, hfirst.aliases taker between htaker hbetween]
    have hgivers : (∃ id ∈ ids, ∃ giver, mid.entity? id = some giver ∧
          (key ∈ giver.aliasKeys ∨ key ∈ aliasKeys giver.name)) ↔
        ∃ id ∈ ids, ∃ giver, s.entity? id = some giver ∧
          (key ∈ giver.aliasKeys ∨ key ∈ aliasKeys giver.name) :=
      exists_congr fun id => and_congr_right fun hid => by rw [hsame id hid]
    rw [hgivers, or_assoc]
    simp

/-- What is gathered does not know an order. -/
theorem perm {ids' : List Id} (h : Gathered target ids s after) (hperm : ids.Perm ids') :
    Gathered target ids' s after where
  relations := gather_perm hperm target ▸ h.relations
  observations := gather_perm hperm target ▸ h.observations
  entities := by simpa only [hperm.mem_iff] using h.entities
  others := by simpa only [hperm.mem_iff] using h.others
  aliases := by simpa only [hperm.mem_iff] using h.aliases

end Gathered

/-- Merging entities one after the other succeeds and gathers them at the target. -/
theorem mergeAll_eq_ok {steps : List (Moment × Id)} (hs : s.Sound) (hcounted : s.Counted)
    (htarget : s.HasEntity target)
    (hsources : ∀ id ∈ steps.map Prod.snd, s.HasEntity id ∧ id ≠ target)
    (hnodup : (steps.map Prod.snd).Nodup) :
    ∃ after, s.mergeAll target steps = .ok after ∧
      Gathered target (steps.map Prod.snd) s after ∧ after.Sound ∧ after.Counted := by
  induction steps generalizing s with
  | nil => exact ⟨s, rfl, .refl hs.linked target, hs, hcounted⟩
  | cons step rest ih =>
    obtain ⟨now, source⟩ := step
    rw [List.map_cons] at hsources hnodup ⊢
    obtain ⟨hsource, hnodup⟩ := List.nodup_cons.1 hnodup
    obtain ⟨hthere, hne⟩ := hsources source List.mem_cons_self
    obtain ⟨effect, mid, hok, _⟩ := mergeEntities_eq_ok now.text hs hne hthere htarget
    have hfirst := Gathered.of_merge hs hok hne hthere htarget
    -- The target and the entities that are still to be merged are there after the first merge.
    have hstays {id : Id} (hid : s.HasEntity id) (happart : id ≠ source) : mid.HasEntity id :=
      hfirst.hasEntity.2 ⟨hid, by simpa using happart⟩
    have hrest : ∀ id ∈ rest.map Prod.snd, mid.HasEntity id ∧ id ≠ target := by
      intro id hid
      obtain ⟨hthere, happart⟩ := hsources id (List.mem_cons_of_mem _ hid)
      exact ⟨hstays hthere fun hsame => hsource (hsame ▸ hid), happart⟩
    obtain ⟨after, hafter, hgathered, hsound⟩ :=
      ih (hs.writes (mergeEntities_writes hs.keyed hok)) (mergeEntities_counted hcounted hok)
        (hstays htarget hne.symm) hrest hnodup
    refine ⟨after, bind_eq_ok.2 ⟨_, hok, hafter⟩, ?_, hsound⟩
    exact hfirst.cons hgathered hsource fun hin => (hsources target hin).2 rfl

/-- Two stores are the same graph, but for when the entity `target` was last changed and for how
its aliases are spelled and ordered. -/
structure AlikeBut (target : Id) (a b : Store) : Prop where
  ids : a.entities.map Entity.id = b.entities.map Entity.id
  others : ∀ id, id ≠ target → a.entity? id = b.entity? id
  observations : a.observations = b.observations
  relations : a.relations = b.relations
  taker : ∃ x y, a.entity? target = some x ∧ b.entity? target = some y ∧
    x.observationCount = y.observationCount ∧ ∀ key, key ∈ x.aliasKeys ↔ key ∈ y.aliasKeys

/-- What is gathered at a target is one graph. -/
theorem Gathered.alike {ids : List Id} {a b : Store} (ha : Gathered target ids s a)
    (hb : Gathered target ids s b) (hak : a.Keyed) (hbk : b.Keyed) (hac : a.Counted)
    (hbc : b.Counted) (htarget : s.HasEntity target) (hout : target ∉ ids) :
    AlikeBut target a b := by
  have hobservations : a.observations = b.observations :=
    ha.observations.trans hb.observations.symm
  constructor
  case ids => exact ha.entities.trans hb.entities.symm
  case others =>
    intro id hid
    by_cases hin : id ∈ ids
    · have hgone {t : Store} (ht : Gathered target ids s t) : t.entity? id = none := by
        rw [← Option.isNone_iff_eq_none, isNone_entity?_iff, ht.hasEntity]
        exact fun hthere => hthere.2 hin
      rw [hgone ha, hgone hb]
    · rw [ha.others id hid hin, hb.others id hid hin]
  case observations => exact hobservations
  case relations =>
    apply hak.relations.eq_of_mem_iff hbk.relations
    exact fun row => (ha.relations row).trans (hb.relations row).symm
  case taker =>
    have hrow {t : Store} (ht : t.HasEntity target) : ∃ e, t.entity? target = some e :=
      ht.exists_entity?
    obtain ⟨taker, htaker⟩ := hrow htarget
    obtain ⟨x, hx⟩ := hrow (ha.hasEntity.2 ⟨htarget, hout⟩)
    obtain ⟨y, hy⟩ := hrow (hb.hasEntity.2 ⟨htarget, hout⟩)
    refine ⟨x, y, hx, hy, ?_, fun key => ?_⟩
    · have hcount {t : Store} {e : Entity} (hc : t.Counted) (he : t.entity? target = some e) :
          e.observationCount = (t.observationsOf target).length :=
        entity?_id he ▸ hc e (mem_of_entity? he) List.not_mem_nil
      rw [hcount hac hx, hcount hbc hy, observationsOf, observationsOf, hobservations]
    · rw [ha.aliases taker x htaker hx, hb.aliases taker y htaker hy]

end Store

/-- Merging entities of a reachable store into one target, one after the other, succeeds in every
order, and any two orders lead to the same graph. -/
theorem merges_commute {s : Store} (h : Reachable s) {target : Id} (htarget : s.HasEntity target)
    {first second : List (Moment × Id)} (hnodup : (first.map Prod.snd).Nodup)
    (hsources : ∀ id ∈ first.map Prod.snd, s.HasEntity id ∧ id ≠ target)
    (hperm : (first.map Prod.snd).Perm (second.map Prod.snd)) :
    ∃ a b, s.mergeAll target first = .ok a ∧ s.mergeAll target second = .ok b ∧
      AlikeBut target a b := by
  have hs := h.sound
  obtain ⟨a, ha, hgathered, hasound, hacounted⟩ :=
    mergeAll_eq_ok hs h.counted htarget hsources hnodup
  obtain ⟨b, hb, hgathered', hbsound, hbcounted⟩ :=
    mergeAll_eq_ok hs h.counted htarget (fun id hid => hsources id (hperm.mem_iff.2 hid))
      (hperm.nodup_iff.1 hnodup)
  refine ⟨a, b, ha, hb, ?_⟩
  exact hgathered.alike (hgathered'.perm hperm.symm) hasound.keyed hbsound.keyed hacounted hbcounted
    htarget fun hin => (hsources target hin).2 rfl

/-- Two entities with a relation between them and each with the same relation to a third one, both
merged into a fourth one in either order. -/
theorem merges_commute_of_triangle :
    let now : Moment := .ofNanoseconds 0
    let s := Store.run .empty [
      (now, .addEntity { name := "first", entityType := "Note" }),
      (now, .addEntity { name := "second", entityType := "Note" }),
      (now, .addEntity { name := "parent", entityType := "Project" }),
      (now, .addEntity { name := "fourth", entityType := "Note" }),
      (now, .relate 2 3 "part_of"),
      (now, .relate 1 2 "depends_on"),
      (now, .relate 1 3 "part_of")]
    ∃ a b, s.mergeAll 4 [(now, 1), (now, 2)] = .ok a ∧ s.mergeAll 4 [(now, 2), (now, 1)] = .ok b ∧
      AlikeBut 4 a b := by
  intro now s
  have hfirst : s.HasEntity 1 := by decide +kernel
  have hsecond : s.HasEntity 2 := by decide +kernel
  have hfourth : s.HasEntity 4 := by decide +kernel
  refine merges_commute (Reachable.empty.run _) hfourth ?_ ?_ ?_
  · simp
  · rintro id hid
    simp only [List.map_cons, List.map_nil, List.mem_cons, List.not_mem_nil, or_false] at hid
    obtain rfl | rfl := hid
    · exact ⟨hfirst, by decide⟩
    · exact ⟨hsecond, by decide⟩
  · exact .swap 2 1 []

end MemoryGraph
