-- SUMMARY: What exporting entities and importing the document elsewhere keeps of the store, and what it turns around.
import MemoryGraph.Proofs.Branch
import Mathlib.Order.WellFoundedSet

/-!
# Round trips

The roots of a store without cycles cover it, and when all relations lead
upwards a restored store is the old one with new ids. Lateral relations are
written into a tree in the same way as upward ones, but lead the other way: a
round trip turns them around.
-/
namespace MemoryGraph.Store

/-! ## Roots cover a store without cycles -/

/-- An upward relation leads from one entity to the other. -/
def ChildOf (s : Store) (child parent : Id) : Prop :=
  ∃ type, isUpwardType type = true ∧ (child, parent, type) ∈ s.relations.map Relation.triple

/-- No entity is above itself. -/
def Acyclic (s : Store) : Prop := ∀ id, ¬ Relation.TransGen s.ChildOf id id

/-- All relations lead from children to parents. -/
def Upward (s : Store) : Prop := ∀ r ∈ s.relations, r.isUpward = true

section Cover

variable {s : Store} {ids up : List Id} {id child parent : Id}

/-- What holds of an entity as soon as it holds of its parents holds of all entities. -/
theorem Acyclic.induction (h : s.Acyclic) (hl : s.Linked) {P : Id → Prop}
    (hstep : ∀ id, s.HasEntity id → (∀ parent, s.ChildOf id parent → P parent) → P id)
    (hid : s.HasEntity id) : P id := by
  let above : Id → Id → Prop := fun parent child => Relation.TransGen s.ChildOf child parent
  have hfinite : {id | s.HasEntity id}.Finite := by
    refine (List.finite_toSet (s.entities.map Entity.id)).subset ?_
    rintro _ ⟨e, he, rfl⟩
    exact List.mem_map_of_mem he
  have horder : IsStrictOrder Id above :=
    { irrefl := h
      trans := fun a b c hab hbc => hbc.trans hab }
  refine hfinite.wellFoundedOn (r := above) |>.induction hid fun id hid ih => ?_
  refine hstep id hid fun parent hparent => ih parent ?_ (.single hparent)
  obtain ⟨type, _, htriple⟩ := hparent
  exact (hl.ends_of_triple htriple).2

theorem Upward.type (h : s.Upward) {type : String}
    (htriple : (child, parent, type) ∈ s.relations.map Relation.triple) :
    isUpwardType type = true := by
  obtain ⟨r, hr, _, _, rfl⟩ := mem_triples.1 htriple
  exact h r hr

/-- Where all relations lead upwards, all links lead downwards. -/
theorem Upward.triple_of_link (h : s.Upward) {link : Link} (hlink : link ∈ s.links id) :
    (link.target, id, link.relationType) ∈ s.relations.map Relation.triple := by
  obtain ⟨target, type⟩ := link
  rcases mem_links.1 hlink with ⟨_, htriple⟩ | ⟨hlateral, htriple⟩
  · exact htriple
  · rw [h.type htriple] at hlateral
    cases hlateral

theorem Upward.childOf (h : s.Upward) {link : Link} (hlink : link ∈ s.links id) :
    s.ChildOf link.target id :=
  ⟨link.relationType, h.type (h.triple_of_link hlink), h.triple_of_link hlink⟩

/-- The entities on a branch are above its tip. -/
theorem Branch.above (hup : s.Upward) (h : s.Branch ids (id :: up)) :
    ∀ x ∈ id :: up, Relation.ReflTransGen s.ChildOf id x := by
  generalize hbranch : id :: up = branch at h
  induction h generalizing id up with
  | root hid hthere =>
    cases hbranch
    simp [Relation.ReflTransGen.refl]
  | grow h hlink hoff hthere ih =>
    cases hbranch
    intro x hx
    rcases List.mem_cons.1 hx with rfl | hx
    · exact .refl
    · exact .head (hup.childOf hlink) (ih rfl x hx)

/-- A child is not on a branch of its parent. -/
theorem Acyclic.off_branch (h : s.Acyclic) (hup : s.Upward) (hbranch : s.Branch ids (parent :: up))
    (hchild : s.ChildOf child parent) : child ∉ parent :: up :=
  fun hon => h child (.head' hchild (hbranch.above hup child hon))

theorem mem_roots {e : Entity} : e ∈ s.roots ↔ e ∈ s.entities ∧ s.isRoot e.id = true := by
  have hparentless : e ∈ s.parentless ↔ e ∈ s.entities ∧ s.isRoot e.id = true := by
    simp [parentless, byName]
  cases htop : e.isTop <;> simp [roots, hparentless, htop]

/-- The roots of a store without cycles cover it. -/
theorem exists_branch (hl : s.Linked) (hup : s.Upward) (hacyclic : s.Acyclic)
    (hid : s.HasEntity id) : ∃ up, s.Branch (s.roots.map Entity.id) (id :: up) := by
  refine hacyclic.induction hl (P := fun id => ∃ up, s.Branch (s.roots.map Entity.id) (id :: up))
    (fun id hid ih => ?_) hid
  by_cases hroot : s.isRoot id = true
  · obtain ⟨e, he, rfl⟩ := hid
    exact ⟨[], .root (List.mem_map_of_mem (mem_roots.2 ⟨he, hroot⟩)) ⟨e, he, rfl⟩⟩
  · obtain ⟨r, hr⟩ := List.exists_mem_of_ne_nil _ (by simpa [isRoot] using hroot)
    obtain ⟨hmem, hsource⟩ := List.mem_filter.1 hr
    simp only [Bool.and_eq_true, decide_eq_true_eq] at hsource
    obtain ⟨rfl, htype⟩ := hsource
    have htriple : (r.source, r.target, r.relationType) ∈ s.relations.map Relation.triple :=
      List.mem_map_of_mem hmem
    have hchild : s.ChildOf r.source r.target := ⟨r.relationType, htype, htriple⟩
    obtain ⟨up, hbranch⟩ := ih r.target hchild
    have hlink : (⟨r.source, r.relationType⟩ : Link) ∈ s.links r.target :=
      mem_links.2 (.inl ⟨htype, htriple⟩)
    exact ⟨_, hbranch.grow hlink (hacyclic.off_branch hup hbranch hchild) hid⟩

theorem follows_of_triple (hl : s.Linked) (hup : s.Upward) (hacyclic : s.Acyclic) {type : String}
    (htriple : (child, parent, type) ∈ s.relations.map Relation.triple) :
    s.Follows (s.roots.map Entity.id) parent ⟨child, type⟩ := by
  have htype := hup.type htriple
  obtain ⟨hchild, hparent⟩ := hl.ends_of_triple htriple
  obtain ⟨up, hbranch⟩ := exists_branch hl hup hacyclic hparent
  exact ⟨up, hbranch, mem_links.2 (.inl ⟨htype, htriple⟩),
    hacyclic.off_branch hup hbranch ⟨type, htype, htriple⟩, hchild⟩

end Cover

/-! ## Restoring a store -/

/-- A store is another one with its ids renamed: the entities have the same texts and observations,
with the aliases in their normal form, and the relations are the same. -/
structure RenamedBy (s d : Store) (rename : Id → Id) : Prop where
  bijective : Set.BijOn rename {id | s.HasEntity id} {id | d.HasEntity id}
  entity : ∀ e ∈ s.entities, ∃ e' ∈ d.entities, e'.id = rename e.id ∧ e'.name = e.name ∧
    e'.entityType = e.entityType ∧ e'.description = e.description ∧
    aliasUnionText e'.aliases.toList = aliasUnionText e.aliases.toList ∧
    d.recorded e'.id = s.recorded e.id
  relations : (d.relations.map Relation.triple).Perm
    (s.relations.map fun r => (rename r.source, rename r.target, r.relationType))

/-- The id of the entity that has the same name in another store. -/
def counterpart (s d : Store) (id : Id) : Id :=
  (((s.entity? id).bind fun e => d.entityNamed? e.name).map Entity.id).getD id

theorem counterpart_eq {s d : Store} (hs : s.Keyed) (hd : d.Named) {e e' : Entity}
    (he : e ∈ s.entities) (he' : e' ∈ d.entities) (hname : e'.name = e.name) :
    s.counterpart d e.id = e'.id := by
  have hfind : s.entity? e.id = some e := hs.entity?_eq_some.2 ⟨he, rfl⟩
  have hnamed : d.entityNamed? e.name = some e' := hd.entityNamed?_eq_some.2 ⟨he', hname⟩
  simp [counterpart, hfind, hnamed]

theorem aliasUnionText_toList {aliases aliases' : Option String}
    (h : aliasUnion [aliases.getD ""] = aliasUnion [aliases'.getD ""]) :
    aliasUnionText aliases.toList = aliasUnionText aliases'.toList := by
  have hunion : ∀ text : Option String, aliasUnion text.toList = aliasUnion [text.getD ""] := by
    intro text
    cases text with
    | none => simp [aliasUnion, aliasesOf_empty]
    | some text => rfl
  exact aliasUnionText_congr (by rw [hunion, hunion, h])

/-- A store that holds copies of all entities, linked alike by name, is a renamed one. -/
theorem renamedBy_counterpart {s d : Store} (hs : s.Sound) (hd : d.Sound) (hcopies : s.Copies d)
    (hnames : ∀ name, d.HasName name ↔ s.HasName name)
    (hrelates : ∀ source target type, d.Relates source target type ↔ s.Relates source target type) :
    s.RenamedBy d (s.counterpart d) := by
  have hcopy : ∀ e ∈ s.entities, ∃ e' ∈ d.entities,
      s.counterpart d e.id = e'.id ∧ s.Copy d e e' := by
    intro e he
    obtain ⟨e', he', hname⟩ := (hnames e.name).2 ⟨e, he, rfl⟩
    exact ⟨e', he', counterpart_eq hs.keyed hd.named he he' hname,
      copy_of_name hs.named hcopies he he' hname⟩
  have hback : ∀ e' ∈ d.entities, ∃ e ∈ s.entities, s.counterpart d e.id = e'.id := by
    intro e' he'
    obtain ⟨e, he, hsame⟩ := hcopies e' he'
    exact ⟨e, he, counterpart_eq hs.keyed hd.named he he' hsame.name⟩
  have hinjective : Set.InjOn (s.counterpart d) {id | s.HasEntity id} := by
    rintro _ ⟨a, ha, rfl⟩ _ ⟨b, hb, rfl⟩ heq
    obtain ⟨a', ha', hid, hsame⟩ := hcopy a ha
    obtain ⟨b', hb', hid', hsame'⟩ := hcopy b hb
    obtain rfl := hd.keyed.entities.unique ha' hb' (hid.symm.trans (heq.trans hid'))
    have hname : a.name = b.name := hsame.name.symm.trans hsame'.name
    exact congrArg Entity.id (List.inj_on_of_nodup_map hs.named ha hb hname)
  refine ⟨⟨?_, hinjective, ?_⟩, ?_, ?_⟩
  · rintro _ ⟨e, he, rfl⟩
    obtain ⟨e', he', hid, _⟩ := hcopy e he
    exact ⟨e', he', hid.symm⟩
  · rintro _ ⟨e', he', rfl⟩
    obtain ⟨e, he, hid⟩ := hback e' he'
    exact ⟨e.id, ⟨e, he, rfl⟩, hid⟩
  · intro e he
    obtain ⟨e', he', hid, hsame⟩ := hcopy e he
    exact ⟨e', he', hid.symm, hsame.name, hsame.entityType, hsame.description,
      aliasUnionText_toList hsame.aliases, hsame.recorded⟩
  · have himages : (s.relations.map fun r =>
        (s.counterpart d r.source, s.counterpart d r.target, r.relationType)).Nodup := by
      refine hs.linked.triples.of_map.map_on fun a ha b hb heq => ?_
      simp only [Prod.mk.injEq] at heq
      obtain ⟨hsource, htarget, htype⟩ := heq
      have hsource' := hinjective (hs.linked.source a ha) (hs.linked.source b hb) hsource
      have htarget' := hinjective (hs.linked.target a ha) (hs.linked.target b hb) htarget
      exact List.inj_on_of_nodup_map hs.linked.triples ha hb
        (Relation.triple_eq_iff.2 ⟨hsource', htarget', htype⟩)
    refine (List.perm_ext_iff_of_nodup hd.linked.triples himages).2 fun t => ?_
    constructor
    · intro ht
      obtain ⟨r, hr, rfl⟩ := List.mem_map.1 ht
      obtain ⟨a', ha', haid⟩ := hd.linked.source r hr
      obtain ⟨b', hb', hbid⟩ := hd.linked.target r hr
      have hrelated : d.Relates a'.name b'.name r.relationType :=
        ⟨a', ha', b', hb', rfl, rfl, by rw [haid, hbid]; exact ht⟩
      obtain ⟨a, ha, b, hb, haname, hbname, htriple⟩ := (hrelates _ _ _).1 hrelated
      obtain ⟨r', hr', hsource, htarget, htype⟩ := mem_triples.1 htriple
      refine List.mem_map.2 ⟨r', hr', ?_⟩
      rw [hsource, htarget, htype, counterpart_eq hs.keyed hd.named ha ha' haname.symm,
        counterpart_eq hs.keyed hd.named hb hb' hbname.symm, haid, hbid]
      rfl
    · intro ht
      obtain ⟨r, hr, rfl⟩ := List.mem_map.1 ht
      obtain ⟨a, ha, haid⟩ := hs.linked.source r hr
      obtain ⟨b, hb, hbid⟩ := hs.linked.target r hr
      have hrelated : s.Relates a.name b.name r.relationType :=
        ⟨a, ha, b, hb, rfl, rfl, by rw [haid, hbid]; exact List.mem_map_of_mem hr⟩
      obtain ⟨a', ha', b', hb', haname, hbname, htriple⟩ := (hrelates _ _ _).2 hrelated
      rw [← haid, ← hbid, counterpart_eq hs.keyed hd.named ha ha' haname,
        counterpart_eq hs.keyed hd.named hb hb' hbname]
      exact htriple

/-- Restoring a store with upward relations and without cycles from its roots loses nothing. -/
theorem restored_of_acyclic {s : Store} (h : Reachable s) (hup : s.Upward) (hacyclic : s.Acyclic)
    (now : Moment) (exportedAt : Timestamp) (mode : ImportMode) :
    (s.restore now.text exportedAt (s.roots.map Entity.id) mode).1.success = true ∧
      ∃ rename,
        s.RenamedBy (s.restore now.text exportedAt (s.roots.map Entity.id) mode).2 rename := by
  have hs := h.sound
  obtain ⟨hsuccess, hgrown⟩ := restore_grown now exportedAt (s.roots.map Entity.id) mode hs
  refine ⟨hsuccess, _, renamedBy_counterpart hs hgrown.sound hgrown.copies (fun name => ?_)
    fun source target type => ?_⟩
  · rw [hgrown.name]
    constructor
    · rintro (⟨e, he, _⟩ | ⟨e, he, hname, _⟩)
      · cases he
      · exact ⟨e, he, hname⟩
    · rintro ⟨e, he, hname⟩
      exact .inr ⟨e, he, hname, exists_branch hs.linked hup hacyclic ⟨e, he, rfl⟩⟩
  · rw [hgrown.relates]
    constructor
    · rintro (⟨e, he, _⟩ | ⟨p, hp, c, hc, hcname, hpname, hfollows⟩)
      · cases he
      · obtain ⟨_, _, hlink, _⟩ := hfollows
        exact ⟨c, hc, p, hp, hcname, hpname, hup.triple_of_link hlink⟩
    · rintro ⟨c, hc, p, hp, hcname, hpname, htriple⟩
      exact .inr ⟨p, hp, c, hc, hcname, hpname, follows_of_triple hs.linked hup hacyclic htriple⟩

/-- Where relations lead to entities that were there before, there are no cycles. -/
theorem acyclic_of_older {s : Store} (h : ∀ r ∈ s.relations, r.target < r.source) : s.Acyclic := by
  have holder : ∀ child parent, Relation.TransGen s.ChildOf child parent → parent < child := by
    have hstep : ∀ child parent, s.ChildOf child parent → parent < child := by
      rintro child parent ⟨type, _, htriple⟩
      obtain ⟨r, hr, rfl, rfl, _⟩ := mem_triples.1 htriple
      exact h r hr
    intro child parent hpath
    induction hpath with
    | single hone => exact hstep _ _ hone
    | tail _ hlast ih => exact Int.lt_trans (hstep _ _ hlast) ih
  exact fun id hcycle => Int.lt_irrefl id (holder id id hcycle)

/-- A diamond with two relations on one of its sides, and an observation made twice. -/
theorem restored_diamond :
    let now : Moment := .ofNanoseconds 0
    let s := Store.run .empty [
      (now, .addEntity { name := "top", entityType := "Project", aliases := some "a; b, A" }),
      (now, .addEntity { name := "left", entityType := "Note", observations := ["seen", "seen"] }),
      (now, .addEntity { name := "right", entityType := "Note" }),
      (now, .addEntity { name := "bottom", entityType := "Note", observations := ["last"] }),
      (now, .relate 2 1 "part_of"), (now, .relate 3 1 "part_of"), (now, .relate 4 2 "part_of"),
      (now, .relate 4 2 "depends_on"), (now, .relate 4 3 "part_of")]
    Reachable s ∧ s.Upward ∧ s.Acyclic ∧
      (s.restore now.text now.text (s.roots.map Entity.id) .atomic).1.success = true ∧
      ∃ rename, s.RenamedBy
        (s.restore now.text now.text (s.roots.map Entity.id) .atomic).2 rename := by
  intro now s
  have hreachable : Reachable s := Reachable.empty.run _
  have hup : s.Upward := by
    unfold Upward
    decide +kernel
  have hacyclic : s.Acyclic := acyclic_of_older (by decide +kernel)
  exact ⟨hreachable, hup, hacyclic,
    restored_of_acyclic hreachable hup hacyclic now now.text .atomic⟩

/-! ## Lateral relations -/

/-- What a restored store relates, the store relates exactly when every lateral relation that the
export follows has its converse: restored, it leads the other way. -/
theorem restored_relates_iff {s : Store} (h : Reachable s) (now : Moment) (exportedAt : Timestamp)
    (ids : List Id) (mode : ImportMode) :
    (∀ source target type,
        (s.restore now.text exportedAt ids mode).2.Relates source target type →
          s.Relates source target type) ↔
      ∀ r ∈ s.relations, r.isUpward = false →
        s.Follows ids r.source ⟨r.target, r.relationType⟩ →
          (r.target, r.source, r.relationType) ∈ s.relations.map Relation.triple := by
  have hs := h.sound
  obtain ⟨_, hgrown⟩ := restore_grown now exportedAt ids mode hs
  constructor
  · intro hknown r hr _ hfollows
    obtain ⟨p, hp, hpid⟩ := hs.linked.source r hr
    obtain ⟨c, hc, hcid⟩ := hs.linked.target r hr
    rw [← hpid, ← hcid] at hfollows ⊢
    obtain ⟨a, ha, b, hb, haname, hbname, htriple⟩ := hknown c.name p.name r.relationType
      ((hgrown.relates _ _ _).2 (.inr ⟨p, hp, c, hc, rfl, rfl, hfollows⟩))
    rwa [List.inj_on_of_nodup_map hs.named ha hc haname,
      List.inj_on_of_nodup_map hs.named hb hp hbname] at htriple
  · intro hconverse source target type hrelates
    rcases (hgrown.relates _ _ _).1 hrelates with ⟨e, he, _⟩ | ⟨p, hp, c, hc, rfl, rfl, hfollows⟩
    · cases he
    obtain ⟨_, _, hlink, _⟩ := id hfollows
    rcases mem_links.1 hlink with ⟨_, htriple⟩ | ⟨hlateral, htriple⟩
    · exact ⟨c, hc, p, hp, rfl, rfl, htriple⟩
    · obtain ⟨r, hr, hsource, htarget, rfl⟩ := mem_triples.1 htriple
      rw [← hsource, ← htarget] at hfollows
      have hback := hconverse r hr hlateral hfollows
      rw [hsource, htarget] at hback
      exact ⟨c, hc, p, hp, rfl, rfl, hback⟩

/-- A lateral relation between two entities is restored the other way round. -/
theorem restored_relates_reversed :
    let now : Moment := .ofNanoseconds 0
    let s := Store.run .empty [
      (now, .addEntity { name := "A", entityType := "Note" }),
      (now, .addEntity { name := "B", entityType := "Note" }),
      (now, .relate 1 2 "relates_to")]
    Reachable s ∧ ¬ ∀ source target type,
      (s.restore now.text now.text [1] .atomic).2.Relates source target type →
        s.Relates source target type := by
  intro now s
  have hreachable : Reachable s := Reachable.empty.run _
  refine ⟨hreachable, fun hknown => ?_⟩
  have hfollows : s.Follows [1] 1 ⟨2, "relates_to"⟩ :=
    ⟨[], .root (by decide) (by decide +kernel), by decide +kernel, by decide, by decide +kernel⟩
  have hrow : ⟨1, 1, 2, "relates_to", now.text⟩ ∈ s.relations := by decide +kernel
  have hback := (restored_relates_iff hreachable now now.text [1] .atomic).1 hknown _ hrow
    (by decide +kernel) hfollows
  revert hback
  decide +kernel

end MemoryGraph.Store
