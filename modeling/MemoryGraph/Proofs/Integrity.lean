-- SUMMARY: What holds of the rows of every reachable store: ends and owners exist, no loops or repetitions, names of their own.
import MemoryGraph.Proofs.Chain

/-!
# Integrity

Four invariants of the store: ids are keys, rows refer to rows that exist and
relations neither loop nor repeat, no two entities share a name, and stored
texts are settled. Each is kept by every kind of write, and so by every run.
-/
namespace MemoryGraph

open Text

/-- The ends and the type of a relation. -/
def Relation.triple (r : Relation) : Id × Id × String := (r.source, r.target, r.relationType)

theorem Relation.triple_eq_iff {a b : Relation} :
    a.triple = b.triple ↔
      a.source = b.source ∧ a.target = b.target ∧ a.relationType = b.relationType := by
  simp [Relation.triple]

namespace Store

theorem mem_triples {s : Store} {source target : Id} {type : String} :
    (source, target, type) ∈ s.relations.map Relation.triple ↔
      ∃ r ∈ s.relations, r.source = source ∧ r.target = target ∧ r.relationType = type := by
  simp [Relation.triple]

theorem isSome_relationBetween?_iff {s : Store} {source target : Id} {type : String} :
    (s.relationBetween? source target type).isSome = true ↔
      (source, target, type) ∈ s.relations.map Relation.triple := by
  simp [relationBetween?, mem_triples, Relation.links, and_assoc]

/-- After a relation was asked for it is there, whether it was before or not. -/
theorem appendRelation_triples {now : Timestamp} {source target : Id} {relationType : String}
    {s after : Store} {added : Option Relation}
    (h : s.appendRelation now source target relationType = .ok (added, after)) :
    after.entities = s.entities ∧ after.observations = s.observations ∧
      ∀ t, t ∈ after.relations.map Relation.triple ↔
        t ∈ s.relations.map Relation.triple ∨ t = (source, target, trim relationType) := by
  obtain ⟨_, _, ⟨_, hthere, rfl⟩ | ⟨row, _, rfl, _, _, _, rfl⟩⟩ := appendRelation_cases h
  · refine ⟨rfl, rfl, fun t => ⟨.inl, ?_⟩⟩
    rintro (ht | rfl)
    · exact ht
    · obtain ⟨r, hr⟩ := Option.isSome_iff_exists.1 hthere
      exact mem_triples.2 ⟨r, mem_of_relationBetween? hr, relationBetween?_links hr⟩
  · exact ⟨rfl, rfl, fun t => by simp [Relation.triple]⟩

/-! ## Rows that refer to rows -/

/-- Rows refer to entities that are there, and relations neither loop nor repeat. -/
structure Linked (s : Store) : Prop where
  /-- Every observation belongs to an entity. -/
  owner : ∀ o ∈ s.observations, s.HasEntity o.entityId
  source : ∀ r ∈ s.relations, s.HasEntity r.source
  target : ∀ r ∈ s.relations, s.HasEntity r.target
  no_loop : ∀ r ∈ s.relations, r.source ≠ r.target
  /-- No two relations have the same ends and type. -/
  triples : (s.relations.map Relation.triple).Nodup

theorem linked_empty : Linked empty := by
  constructor <;> simp [empty]

/-- The ends of a triple that is there are entities. -/
theorem Linked.ends_of_triple {s : Store} (h : s.Linked) {source target : Id} {type : String}
    (htriple : (source, target, type) ∈ s.relations.map Relation.triple) :
    s.HasEntity source ∧ s.HasEntity target := by
  obtain ⟨r, hr, rfl, rfl, _⟩ := mem_triples.1 htriple
  exact ⟨h.source r hr, h.target r hr⟩

/-- The entities that are there stay there when the rows of entities keep their ids. -/
theorem Linked.of_entities {s after : Store} (h : s.Linked)
    (hentities : ∀ id, s.HasEntity id → after.HasEntity id)
    (hobservations : after.observations = s.observations)
    (hrelations : after.relations = s.relations) : after.Linked where
  owner o ho := hentities _ (h.owner o (hobservations ▸ ho))
  source r hr := hentities _ (h.source r (hrelations ▸ hr))
  target r hr := hentities _ (h.target r (hrelations ▸ hr))
  no_loop r hr := h.no_loop r (hrelations ▸ hr)
  triples := hrelations ▸ h.triples

theorem Linked.keepRelations {s : Store} (h : s.Linked) (keep : Relation → Bool) :
    Linked { s with relations := s.relations.filter keep } where
  owner := h.owner
  source r hr := h.source r (List.mem_filter.1 hr).1
  target r hr := h.target r (List.mem_filter.1 hr).1
  no_loop r hr := h.no_loop r (List.mem_filter.1 hr).1
  triples := h.triples.sublist (List.filter_sublist.map _)

theorem Linked.removeEntity {s : Store} (h : s.Linked) (id : Id) : (s.removeEntity id).Linked := by
  have hapart : ∀ r ∈ (s.removeEntity id).relations,
      r ∈ s.relations ∧ r.source ≠ id ∧ r.target ≠ id := by
    intro r hr
    obtain ⟨hmem, hkeep⟩ := List.mem_filter.1 hr
    exact ⟨hmem, by simpa [Relation.touches] using hkeep⟩
  constructor
  · intro o ho
    obtain ⟨hmem, hkeep⟩ := List.mem_filter.1 ho
    exact hasEntity_removeEntity (by simpa using hkeep) (h.owner o hmem)
  · intro r hr
    obtain ⟨hmem, hsource, _⟩ := hapart r hr
    exact hasEntity_removeEntity hsource (h.source r hmem)
  · intro r hr
    obtain ⟨hmem, _, htarget⟩ := hapart r hr
    exact hasEntity_removeEntity htarget (h.target r hmem)
  · intro r hr
    exact h.no_loop r (hapart r hr).1
  · exact h.triples.sublist (List.filter_sublist.map _)

theorem Linked.addRelation {s : Store} (h : s.Linked) {r : Relation} (hloop : r.source ≠ r.target)
    (hnew : s.relationBetween? r.source r.target r.relationType = none)
    (hsource : s.HasEntity r.source) (htarget : s.HasEntity r.target) :
    Linked { s with relations := s.relations ++ [r], nextRelation := s.nextRelation + 1 } := by
  have hmem : ∀ x ∈ s.relations ++ [r], x ∈ s.relations ∨ x = r := by simp
  constructor
  · exact h.owner
  · intro x hx
    rcases hmem x hx with hx | rfl
    · exact h.source x hx
    · exact hsource
  · intro x hx
    rcases hmem x hx with hx | rfl
    · exact h.target x hx
    · exact htarget
  · intro x hx
    rcases hmem x hx with hx | rfl
    · exact h.no_loop x hx
    · exact hloop
  · have hfresh : r.triple ∉ s.relations.map Relation.triple := by
      intro hin
      obtain ⟨x, hx, heq⟩ := List.mem_map.1 hin
      obtain ⟨hxs, hxt, hxtype⟩ := Relation.triple_eq_iff.1 heq
      exact relationBetween?_eq_none.1 hnew x hx hxs hxt hxtype
    simpa [List.nodup_append, h.triples] using hfresh

theorem Linked.redirect {s after : Store} (hk : s.Keyed) (h : s.Linked) {relation : Relation}
    {source target : Id} (hloop : source ≠ target)
    (htype : ∀ r ∈ s.relations, r.id = relation.id → r.relationType = relation.relationType)
    (hok : s.redirectRelation relation source target = .ok after) : after.Linked := by
  obtain ⟨hfree, hsource, htarget, rfl⟩ := redirectRelation_eq_ok hok
  constructor
  · exact h.owner
  · intro x hx
    obtain ⟨r, hr, rfl⟩ := List.mem_map.1 hx
    split
    · exact hsource
    · exact h.source r hr
  · intro x hx
    obtain ⟨r, hr, rfl⟩ := List.mem_map.1 hx
    split
    · exact htarget
    · exact h.target r hr
  · intro x hx
    obtain ⟨r, hr, rfl⟩ := List.mem_map.1 hx
    split
    · exact hloop
    · exact h.no_loop r hr
  · rw [List.map_map]
    apply (h.triples.of_map).map_on
    intro a ha b hb heq
    simp only [Function.comp_apply] at heq
    -- Two rows can only become alike when one of them is the redirected one, which was checked.
    by_cases haid : a.id = relation.id <;> by_cases hbid : b.id = relation.id
    · exact hk.relations.unique ha hb (haid.trans hbid.symm)
    · rw [if_pos haid, if_neg hbid, Relation.triple_eq_iff] at heq
      obtain ⟨hs, ht, hty⟩ := heq
      exact absurd (hty.symm.trans (htype a ha haid)) (hfree b hb hbid hs.symm ht.symm)
    · rw [if_neg haid, if_pos hbid, Relation.triple_eq_iff] at heq
      obtain ⟨hs, ht, hty⟩ := heq
      exact absurd (hty.trans (htype b hb hbid)) (hfree a ha haid hs ht)
    · rw [if_neg haid, if_neg hbid] at heq
      exact List.inj_on_of_nodup_map h.triples ha hb heq

theorem Write.linked {s after : Store} (h : Write s after) (hk : s.Keyed) (hs : s.Linked) :
    after.Linked := by
  cases h with
  | addEntity hid hsettled hname =>
    refine hs.of_entities ?_ rfl rfl
    rintro _ ⟨e, he, rfl⟩
    exact ⟨e, List.mem_append_left _ he, rfl⟩
  | changeEntity hid hsettled hname =>
    exact hs.of_entities (fun _ => hasEntity_modifyEntity _ _ hid) rfl rfl
  | removeEntity id => exact hs.removeEntity id
  | addObservation hid howner hsettled =>
    refine { hs with owner := fun o ho => ?_ }
    rcases List.mem_append.1 ho with ho | ho
    · exact hs.owner o ho
    · rw [List.mem_singleton.1 ho]
      exact howner
  | removeObservation id =>
    exact { hs with owner := fun o ho => hs.owner o (List.mem_filter.1 ho).1 }
  | handOver htarget =>
    refine { hs with owner := fun o ho => ?_ }
    obtain ⟨row, hrow, rfl⟩ := List.mem_map.1 ho
    split
    · exact htarget
    · exact hs.owner row hrow
  | spendRelationId => exact hs.of_entities (fun _ => id) rfl rfl
  | addRelation hid hsettled hloop hnew hsource htarget =>
    exact hs.addRelation hloop hnew hsource htarget
  | keepRelations keep => exact hs.keepRelations keep
  | redirect hloop htype hok => exact hs.redirect hk hloop htype hok

/-! ## Names -/

/-- No two entities share a name. -/
def Named (s : Store) : Prop := (s.entities.map Entity.name).Nodup

theorem Named.name_ne {s : Store} (h : s.Named) {a b : Entity} (ha : a ∈ s.entities)
    (hb : b ∈ s.entities) (hne : a.id ≠ b.id) : a.name ≠ b.name :=
  fun hsame => hne (congrArg Entity.id (List.inj_on_of_nodup_map h ha hb hsame))

theorem Named.entityNamed?_eq_some {s : Store} (h : s.Named) {name : String} {e : Entity} :
    s.entityNamed? name = some e ↔ e ∈ s.entities ∧ e.name = name := by
  constructor
  · intro hfind
    exact ⟨mem_of_entityNamed? hfind, entityNamed?_name hfind⟩
  · rintro ⟨he, rfl⟩
    cases hfind : s.entityNamed? e.name with
    | none => exact absurd (List.find?_eq_none.1 hfind e he) (by simp)
    | some other =>
      have hname := entityNamed?_name hfind
      rw [List.inj_on_of_nodup_map h (mem_of_entityNamed? hfind) he hname]

theorem entityNamed?_eq_none {s : Store} {name : String} :
    s.entityNamed? name = none ↔ ∀ e ∈ s.entities, e.name ≠ name := by
  simp [entityNamed?]

theorem Named.changeEntity {s : Store} (hk : s.Keyed) (h : s.Named) {id : Id}
    {change : Entity → Entity}
    (hname : ∀ e ∈ s.entities, e.id = id → (change e).name = e.name ∨
      ∀ other, s.entityNamed? (change e).name = some other → other.id = id) :
    (s.modifyEntity id change).Named := by
  -- The changed row keeps its name or takes one that no other row has.
  have hapart : ∀ a ∈ s.entities, ∀ b ∈ s.entities, a.id = id → b.id ≠ id →
      (change a).name ≠ b.name := by
    intro a ha b hb haid hbid heq
    rcases hname a ha haid with hsame | hfree
    · have hab := List.inj_on_of_nodup_map h ha hb (hsame.symm.trans heq)
      exact hbid (hab ▸ haid)
    · exact hbid (hfree b (h.entityNamed?_eq_some.2 ⟨hb, heq.symm⟩))
  unfold Named modifyEntity
  rw [List.map_map]
  apply (h.of_map).map_on
  intro a ha b hb heq
  simp only [Function.comp_apply] at heq
  by_cases haid : a.id = id <;> by_cases hbid : b.id = id
  · exact hk.entities.unique ha hb (haid.trans hbid.symm)
  · rw [if_pos haid, if_neg hbid] at heq
    exact absurd heq (hapart a ha b hb haid hbid)
  · rw [if_neg haid, if_pos hbid] at heq
    exact absurd heq.symm (hapart b hb a ha hbid haid)
  · rw [if_neg haid, if_neg hbid] at heq
    exact List.inj_on_of_nodup_map h ha hb heq

theorem Write.named {s after : Store} (h : Write s after) (hk : s.Keyed) (hs : s.Named) :
    after.Named := by
  cases h with
  | addEntity hid hsettled hname =>
    have hfresh := entityNamed?_eq_none.1 hname
    simpa [Named, List.nodup_append] using And.intro hs hfresh
  | changeEntity hid hsettled hname => exact hs.changeEntity hk hname
  | removeEntity id => exact hs.sublist (List.filter_sublist.map _)
  | addObservation | removeObservation | handOver | spendRelationId | addRelation
  | keepRelations => exact hs
  | redirect hloop htype hok =>
    obtain ⟨_, _, _, rfl⟩ := redirectRelation_eq_ok hok
    exact hs

/-! ## Texts -/

/-- Every row has settled texts. -/
structure Settled (s : Store) : Prop where
  entities : ∀ e ∈ s.entities, e.Settled
  observations : ∀ o ∈ s.observations, o.Settled
  relations : ∀ r ∈ s.relations, r.Settled

theorem settled_empty : Settled empty := by
  constructor <;> simp [empty]

theorem Write.settled {s after : Store} (h : Write s after) (hs : s.Settled) : after.Settled := by
  cases h with
  | addEntity hid hsettled hname =>
    refine { hs with entities := fun e he => ?_ }
    rcases List.mem_append.1 he with he | he
    · exact hs.entities e he
    · rw [List.mem_singleton.1 he]
      exact hsettled
  | changeEntity hid hsettled hname =>
    refine { hs with entities := fun e he => ?_ }
    obtain ⟨row, hrow, rfl⟩ := List.mem_map.1 he
    split
    · rename_i hrowid
      exact hsettled row hrow hrowid (hs.entities row hrow)
    · exact hs.entities row hrow
  | removeEntity id =>
    exact ⟨fun e he => hs.entities e (List.mem_filter.1 he).1,
      fun o ho => hs.observations o (List.mem_filter.1 ho).1,
      fun r hr => hs.relations r (List.mem_filter.1 hr).1⟩
  | addObservation hid howner hsettled =>
    refine { hs with observations := fun o ho => ?_ }
    rcases List.mem_append.1 ho with ho | ho
    · exact hs.observations o ho
    · rw [List.mem_singleton.1 ho]
      exact hsettled
  | removeObservation id =>
    exact { hs with observations := fun o ho => hs.observations o (List.mem_filter.1 ho).1 }
  | handOver htarget =>
    refine { hs with observations := fun o ho => ?_ }
    obtain ⟨row, hrow, rfl⟩ := List.mem_map.1 ho
    have hrow' := hs.observations row hrow
    split
    · exact ⟨hrow'.content, hrow'.createdAt⟩
    · exact hrow'
  | spendRelationId => exact ⟨hs.entities, hs.observations, hs.relations⟩
  | addRelation hid hsettled hloop hnew hsource htarget =>
    refine { hs with relations := fun r hr => ?_ }
    rcases List.mem_append.1 hr with hr | hr
    · exact hs.relations r hr
    · rw [List.mem_singleton.1 hr]
      exact hsettled
  | keepRelations keep =>
    exact { hs with relations := fun r hr => hs.relations r (List.mem_filter.1 hr).1 }
  | redirect hloop htype hok =>
    obtain ⟨_, _, _, rfl⟩ := redirectRelation_eq_ok hok
    refine { hs with relations := fun r hr => ?_ }
    obtain ⟨row, hrow, rfl⟩ := List.mem_map.1 hr
    split
    · exact hs.relations row hrow
    · exact hs.relations row hrow

/-! ## All of them -/

/-- The invariants of the store. -/
structure Sound (s : Store) : Prop where
  keyed : s.Keyed
  linked : s.Linked
  named : s.Named
  settled : s.Settled

theorem sound_empty : Sound empty := ⟨keyed_empty, linked_empty, List.nodup_nil, settled_empty⟩

theorem Write.sound {s after : Store} (h : Write s after) (hs : s.Sound) : after.Sound :=
  ⟨h.keyed hs.keyed, h.linked hs.keyed hs.linked, h.named hs.keyed hs.named, h.settled hs.settled⟩

theorem Sound.writes {s after : Store} (hs : s.Sound) (h : Writes s after) : after.Sound :=
  h.keeps Write.sound hs

end Store

theorem Reachable.sound {s : Store} (h : Reachable s) : s.Sound :=
  Store.sound_empty.writes h.writes

/-- Whatever is asked of the graph, in whatever order and whether refused or not: observations
belong to entities that are there, relations lead between two different ones that are there, and
none is there twice. -/
theorem linked_after_run (steps : List (Moment × Operation)) :
    (Store.run .empty steps).Linked :=
  (Reachable.empty.run steps).sound.linked

/-! ## Texts in plain words -/

/-- A name or a type as it is stored: not empty, without blanks at its ends, without control
characters, and not longer than a limit. -/
structure Text.Tidy (limit : Nat) (text : String) : Prop where
  nonempty : text ≠ ""
  trim_eq : trim text = text
  no_control : ∀ c ∈ text.toList, isControl c = false
  length_le : text.length ≤ limit

theorem Field.Settled.tidy {field : Field} {text : String} (hfield : field ≠ .observation)
    (h : field.Settled text) : Tidy field.maxLength text := by
  obtain ⟨hblank, hlength, hclean⟩ := Field.fault?_eq_none.1 h.passes
  refine ⟨?_, h.trim_eq, ?_, hlength⟩
  · rintro rfl
    simp [allBlank] at hblank
  · intro c hc
    cases field with
    | observation => exact absurd rfl hfield
    | entityName | entityType | relationType => exact hclean c hc

namespace Store

/-- What the texts of a store are like. -/
structure Tidy (s : Store) : Prop where
  name : ∀ e ∈ s.entities, Text.Tidy 256 e.name
  entityType : ∀ e ∈ s.entities, Text.Tidy 128 e.entityType
  aliases : ∀ e ∈ s.entities, ∀ text, e.aliases = some text → text ≠ "" ∧ trim text = text
  description : ∀ e ∈ s.entities, ∀ text, e.description = some text → text ≠ "" ∧ trim text = text
  /-- An observation holds more than blanks, and may hold control characters other than NUL. -/
  content : ∀ o ∈ s.observations, (∃ c ∈ o.content.toList, isBlank c = false) ∧
    o.content.length ≤ 4096 ∧ '\u0000' ∉ o.content.toList
  relationType : ∀ r ∈ s.relations, Text.Tidy 128 r.relationType

theorem Settled.tidy {s : Store} (h : s.Settled) : s.Tidy where
  name e he := (h.entities e he).name.tidy (by decide)
  entityType e he := (h.entities e he).entityType.tidy (by decide)
  aliases e he text htext := by
    have hkept := (h.entities e he).aliases
    rw [htext] at hkept
    exact trimmed_of_nonBlank? hkept
  description e he text htext := by
    have hkept := (h.entities e he).description
    rw [htext] at hkept
    exact trimmed_of_nonBlank? hkept
  content o ho := by
    obtain ⟨hblank, hlength, hclean⟩ := Field.fault?_eq_none.1 (h.observations o ho).content
    refine ⟨by simpa [allBlank] using hblank, hlength, fun hnul => ?_⟩
    simpa [Field.forbids] using hclean _ hnul
  relationType r hr := (h.relations r hr).tidy (by decide)

end Store

/-- Whatever is asked of the graph, no two entities share a name, and all texts are as their checks
and their trimming leave them. -/
theorem named_and_tidy_after_run (steps : List (Moment × Operation)) :
    (Store.run .empty steps).Named ∧ (Store.run .empty steps).Tidy :=
  have hs := (Reachable.empty.run steps).sound
  ⟨hs.named, hs.settled.tidy⟩

end MemoryGraph
