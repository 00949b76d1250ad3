-- SUMMARY: Importing trees that portray the entities of a store copies these entities and links them as the trees do.
import MemoryGraph.Proofs.Admission
import MemoryGraph.Tree.OfStore

/-!
# Rebuilding from trees

A tree portrays a store when each of its nodes has the texts and observations of
an entity. Importing such trees makes copies of these entities, however often
one of them occurs: the first node of an entity creates the copy, and the later
ones find nothing to add to it. What an import adds is told by names, since ids
are given anew.
-/
namespace MemoryGraph

open Text

/-! ## Places in a tree -/

/-- A walk down the tree of `top` comes to a node below an entity of a name, that of `above` for
the top itself. -/
inductive TreeNode.Within (top : TreeNode) (above : Option String) : Option String → TreeNode → Prop
    where
  | here : Within top above above top
  | deeper {q : Option String} {node child : TreeNode} (h : Within top above q node)
      (hchild : child ∈ node.children) : Within top above (some node.name) child

theorem TreeNode.within_iff {top node : TreeNode} {above q : Option String} :
    top.Within above q node ↔
      (q = above ∧ node = top) ∨ ∃ child ∈ top.children, child.Within (some top.name) q node := by
  constructor
  · intro h
    induction h with
    | here => exact .inl ⟨rfl, rfl⟩
    | deeper h hchild ih =>
      right
      obtain ⟨rfl, rfl⟩ | ⟨first, hfirst, hwithin⟩ := ih
      · exact ⟨_, hchild, .here⟩
      · exact ⟨first, hfirst, hwithin.deeper hchild⟩
  · rintro (⟨rfl, rfl⟩ | ⟨child, hchild, h⟩)
    · exact .here
    · induction h with
      | here => exact .deeper .here hchild
      | deeper _ hbelow ih => exact ih.deeper hbelow

namespace Store

/-! ## Stores by names -/

/-- Whether an entity of this name is there. -/
def HasName (s : Store) (name : String) : Prop := ∃ e ∈ s.entities, e.name = name

/-- Whether a relation of this type leads from an entity of one name to one of another. -/
def Relates (s : Store) (source target relationType : String) : Prop :=
  ∃ a ∈ s.entities, ∃ b ∈ s.entities, a.name = source ∧ b.name = target ∧
    (a.id, b.id, relationType) ∈ s.relations.map Relation.triple

/-- Every entity stays, with its id and its name. -/
def Stays (before after : Store) : Prop :=
  ∀ e ∈ before.entities, ∃ e' ∈ after.entities, e'.id = e.id ∧ e'.name = e.name

theorem Stays.refl (s : Store) : Stays s s := fun e he => ⟨e, he, rfl, rfl⟩

theorem Stays.trans {a b c : Store} (h : Stays a b) (h' : Stays b c) : Stays a c := by
  intro e he
  obtain ⟨e', he', hid, hname⟩ := h e he
  obtain ⟨last, hlast, hid', hname'⟩ := h' e' he'
  exact ⟨last, hlast, hid'.trans hid, hname'.trans hname⟩

/-- An entity that stays has the name it had. -/
theorem Stays.name {before after : Store} (h : Stays before after) (hk : after.Keyed)
    {a b : Entity} (ha : a ∈ before.entities) (hb : b ∈ after.entities) (hid : b.id = a.id) :
    b.name = a.name := by
  obtain ⟨c, hc, hcid, hcname⟩ := h a ha
  rwa [hk.entities.unique hb hc (hid.trans hcid.symm)]

/-- Where all entities stay, the relations that stay link the same names. -/
theorem relates_of_stays {before after : Store} (hl : before.Linked) (hk : after.Keyed)
    (h : Stays before after) (hrelations : after.relations = before.relations)
    {source target relationType : String} :
    after.Relates source target relationType ↔ before.Relates source target relationType := by
  unfold Relates
  rw [hrelations]
  constructor
  · rintro ⟨a, ha, b, hb, rfl, rfl, htriple⟩
    obtain ⟨⟨a', ha', hid⟩, b', hb', hid'⟩ := hl.ends_of_triple htriple
    exact ⟨a', ha', b', hb', (h.name hk ha' ha hid.symm).symm, (h.name hk hb' hb hid'.symm).symm,
      by rwa [hid, hid']⟩
  · rintro ⟨a, ha, b, hb, rfl, rfl, htriple⟩
    obtain ⟨a', ha', hid, hname⟩ := h a ha
    obtain ⟨b', hb', hid', hname'⟩ := h b hb
    exact ⟨a', ha', b', hb', hname, hname', by rwa [hid, hid']⟩

/-! ## Copies -/

/-- What the observations of an entity say, and when they were made. -/
def recorded (s : Store) (id : Id) : List (String × Timestamp) :=
  (s.observationsOf id).map fun o => (o.content, o.createdAt)

/-- An entity of the store `d` is a copy of one of `s`; the aliases may be in another form. -/
structure Copy (s d : Store) (e e' : Entity) : Prop where
  name : e'.name = e.name
  entityType : e'.entityType = e.entityType
  description : e'.description = e.description
  aliases : aliasUnion [e'.aliases.getD ""] = aliasUnion [e.aliases.getD ""]
  recorded : d.recorded e'.id = s.recorded e.id

/-- All entities of a store are copies of entities of another one. -/
def Copies (s d : Store) : Prop := ∀ e' ∈ d.entities, ∃ e ∈ s.entities, s.Copy d e e'

/-- What a store gains: copies of entities with these names, and these links between names. -/
structure Grown (s before : Store) (names : String → Prop) (links : String → String → String → Prop)
    (after : Store) : Prop where
  sound : after.Sound
  copies : s.Copies after
  stays : Stays before after
  name : ∀ name, after.HasName name ↔ before.HasName name ∨ names name
  relates : ∀ source target relationType, after.Relates source target relationType ↔
    before.Relates source target relationType ∨ links source target relationType

namespace Grown

variable {s a b c : Store} {names names' : String → Prop}
  {links links' : String → String → String → Prop}

theorem refl (ha : a.Sound) (hcopies : s.Copies a) :
    Grown s a (fun _ => False) (fun _ _ _ => False) a where
  sound := ha
  copies := hcopies
  stays := .refl a
  name _ := by simp
  relates _ _ _ := by simp

theorem trans (h : Grown s a names links b) (h' : Grown s b names' links' c) :
    Grown s a (fun name => names name ∨ names' name)
      (fun source target type => links source target type ∨ links' source target type) c where
  sound := h'.sound
  copies := h'.copies
  stays := h.stays.trans h'.stays
  name name := by rw [h'.name, h.name, or_assoc]
  relates source target type := by rw [h'.relates, h.relates, or_assoc]

theorem congr (h : Grown s a names links b) (hnames : ∀ name, names name ↔ names' name)
    (hlinks : ∀ source target type, links source target type ↔ links' source target type) :
    Grown s a names' links' b where
  sound := h.sound
  copies := h.copies
  stays := h.stays
  name name := by rw [h.name, hnames]
  relates source target type := by rw [h.relates, hlinks]

/-- A name that is there already can be told as gained. -/
theorem known (h : Grown s a (fun _ => False) links b) {name : String} (hname : a.HasName name) :
    Grown s a (fun other => other = name) links b where
  sound := h.sound
  copies := h.copies
  stays := h.stays
  name other := by
    rw [h.name, or_false]
    refine ⟨.inl, ?_⟩
    rintro (hother | rfl)
    · exact hother
    · exact hname
  relates := h.relates

end Grown

/-- A change to an entity that keeps what makes it a copy. -/
theorem grown_modifyEntity {s d : Store} (hd : d.Sound) (hcopies : s.Copies d) {id : Id}
    {change : Entity → Entity} (hwrite : Write d (d.modifyEntity id change))
    (hkeeps : ∀ e ∈ d.entities, e.id = id → (change e).id = e.id ∧ (change e).name = e.name ∧
      (change e).entityType = e.entityType ∧ (change e).description = e.description ∧
      aliasUnion [(change e).aliases.getD ""] = aliasUnion [e.aliases.getD ""]) :
    Grown s d (fun _ => False) (fun _ _ _ => False) (d.modifyEntity id change) := by
  have hsound := hwrite.sound hd
  have hstays : Stays d (d.modifyEntity id change) := by
    intro e he
    refine ⟨_, List.mem_map_of_mem he, ?_⟩
    split
    · rename_i hid
      obtain ⟨hkeptid, hkeptname, _⟩ := hkeeps e he hid
      exact ⟨hkeptid, hkeptname⟩
    · exact ⟨rfl, rfl⟩
  constructor
  · exact hsound
  · intro e' he'
    obtain ⟨row, hrow, rfl⟩ := List.mem_map.1 he'
    obtain ⟨e, he, hcopy⟩ := hcopies row hrow
    refine ⟨e, he, ?_⟩
    split
    · rename_i hid
      obtain ⟨hkeptid, hname, htype, hdescription, haliases⟩ := hkeeps row hrow hid
      exact ⟨hname.trans hcopy.name, htype.trans hcopy.entityType,
        hdescription.trans hcopy.description, haliases.trans hcopy.aliases,
        (congrArg d.recorded hkeptid).trans hcopy.recorded⟩
    · exact ⟨hcopy.name, hcopy.entityType, hcopy.description, hcopy.aliases, hcopy.recorded⟩
  · exact hstays
  · intro name
    constructor
    · rintro ⟨e', he', rfl⟩
      obtain ⟨row, hrow, rfl⟩ := List.mem_map.1 he'
      refine .inl ⟨row, hrow, ?_⟩
      split
      · rename_i hid
        exact (hkeeps row hrow hid).2.1.symm
      · rfl
    · rintro (⟨e, he, rfl⟩ | hnone)
      · obtain ⟨e', he', _, hname⟩ := hstays e he
        exact ⟨e', he', hname⟩
      · exact hnone.elim
  · intro source target type
    rw [relates_of_stays hd.linked hsound.keyed hstays rfl, or_false]

/-! ## Nodes that portray entities -/

/-- A node has the texts and the observations of an entity. -/
structure Portrays (s : Store) (node : TreeNode) (e : Entity) : Prop where
  name : node.name = e.name
  entityType : node.entityType = e.entityType
  aliases : node.aliases = e.aliases
  description : node.description = e.description
  observations : node.observations = s.draftsOf e.id

/-- A node portrays an entity; below another one it has another name and a type for the link. -/
structure Faithful (s : Store) (above : Option String) (node : TreeNode) : Prop where
  portrays : ∃ e ∈ s.entities, s.Portrays node e
  apart : ∀ name, above = some name → node.name ≠ name
  linked : ∀ name, above = some name → Field.relationType.Settled (linkType node)

/-- The parent that a walk hands down is the entity of the name above. -/
def Stands (d : Store) (above : Option String) (parent : Option Id) : Prop :=
  match above with
  | none => parent = none
  | some name => ∃ e ∈ d.entities, e.name = name ∧ parent = some e.id

theorem Stands.stays {before after : Store} {above : Option String} {parent : Option Id}
    (h : before.Stands above parent) (hstays : Stays before after) : after.Stands above parent := by
  cases above with
  | none => exact h
  | some name =>
    obtain ⟨e, he, rfl, rfl⟩ := h
    obtain ⟨e', he', hid, hname⟩ := hstays e he
    exact ⟨e', he', hname, congrArg some hid.symm⟩

section Apply

variable {s d : Store} {node : TreeNode} {e x : Entity}

/-- A relation between two entities, added or there already, links their names. -/
theorem grown_appendRelation {now : Timestamp} (hd : d.Sound) (hcopies : s.Copies d) {p : Entity}
    (hx : x ∈ d.entities) (hp : p ∈ d.entities) {relationType : String} {after : Store}
    {added : Option Relation}
    (hok : d.appendRelation now x.id p.id relationType = .ok (added, after)) :
    Grown s d (fun _ => False)
      (fun source target type => source = x.name ∧ target = p.name ∧ type = trim relationType)
      after := by
  obtain ⟨hentities, hobservations, htriples⟩ := appendRelation_triples hok
  constructor
  · exact (appendRelation_write hok).sound hd
  · intro e' he'
    rw [hentities] at he'
    obtain ⟨e, he, hcopy⟩ := hcopies e' he'
    have hrecorded : after.recorded e'.id = d.recorded e'.id := by
      rw [recorded, recorded, observationsOf, observationsOf, hobservations]
    exact ⟨e, he, { hcopy with recorded := hrecorded.trans hcopy.recorded }⟩
  · intro e he
    exact ⟨e, hentities ▸ he, rfl, rfl⟩
  · intro other
    rw [HasName, HasName, hentities, or_false]
  · intro source target type
    unfold Relates
    rw [hentities]
    constructor
    · rintro ⟨a, ha, b, hb, rfl, rfl, htriple⟩
      rcases (htriples _).1 htriple with hold | hnew
      · exact .inl ⟨a, ha, b, hb, rfl, rfl, hold⟩
      · simp only [Prod.mk.injEq] at hnew
        obtain ⟨haid, hbid, rfl⟩ := hnew
        obtain rfl := hd.keyed.entities.unique ha hx haid
        obtain rfl := hd.keyed.entities.unique hb hp hbid
        exact .inr ⟨rfl, rfl, rfl⟩
    · rintro (⟨a, ha, b, hb, rfl, rfl, hold⟩ | ⟨rfl, rfl, rfl⟩)
      · exact ⟨a, ha, b, hb, rfl, rfl, (htriples _).2 (.inl hold)⟩
      · exact ⟨x, hx, p, hp, rfl, rfl, (htriples _).2 (.inr rfl)⟩

/-- Linking the entity of a node to its parent adds this link. -/
theorem linkToParent_grown (now : Timestamp) (hd : d.Sound) (hcopies : s.Copies d)
    {above : Option String} {parent : Option Id} (hx : x ∈ d.entities) (hname : x.name = node.name)
    (hfaithful : s.Faithful above node) (hparent : d.Stands above parent) :
    ∃ count after, d.linkToParent now node x.id parent = .ok (count, after) ∧
      Grown s d (fun _ => False)
        (fun source target type => above = some target ∧ source = node.name ∧ type = linkType node)
        after := by
  cases above with
  | none =>
    cases hparent
    exact ⟨0, d, rfl, (Grown.refl hd hcopies).congr (fun _ => Iff.rfl) fun _ _ _ => by simp⟩
  | some name =>
    obtain ⟨p, hp, rfl, rfl⟩ := hparent
    have hsettled := hfaithful.linked p.name rfl
    have hapart : p.id ≠ x.id := by
      intro hid
      have hsame := congrArg Entity.name (hd.keyed.entities.unique hp hx hid)
      exact hfaithful.apart p.name rfl (hname.symm.trans hsame.symm)
    obtain ⟨added, after, hok⟩ := appendRelation_of_settled now hsettled (Ne.symm hapart)
      ⟨x, hx, rfl⟩ ⟨p, hp, rfl⟩
    have hexisting : d.existing p.id = .ok p :=
      existing_eq_ok.2 (hd.keyed.entity?_eq_some.2 ⟨hp, rfl⟩)
    refine ⟨if added.isSome then 1 else 0, after, ?_, ?_⟩
    · rw [linkToParent]
      dsimp only
      rw [if_neg hapart]
      exact bind_eq_ok.2 ⟨p, hexisting, bind_eq_ok.2 ⟨_, hok, rfl⟩⟩
    · refine (grown_appendRelation hd hcopies hx hp hok).congr (fun _ => Iff.rfl) ?_
      intro source target type
      rw [hsettled.trim_eq, hname, Option.some.injEq, eq_comm (a := target), and_left_comm]

theorem grown_refreshCount (now : Timestamp) (hd : d.Sound) (hcopies : s.Copies d) (id : Id) :
    Grown s d (fun _ => False) (fun _ _ _ => False) (d.refreshCount now id) :=
  grown_modifyEntity hd hcopies (refreshCount_write now d id)
    fun _ _ _ => ⟨rfl, rfl, rfl, rfl, rfl⟩

/-- The entity of the name of a node is the copy of what the node portrays. -/
theorem copy_of_name (hs : s.Named) (hcopies : s.Copies d) (he : e ∈ s.entities)
    (hx : x ∈ d.entities) (hname : x.name = e.name) : s.Copy d e x := by
  obtain ⟨e', he', hcopy⟩ := hcopies x hx
  have hsame : e' = e := List.inj_on_of_nodup_map hs he' he (hcopy.name.symm.trans hname)
  rwa [hsame] at hcopy

/-- A node finds nothing to add to the copy of what it portrays. -/
theorem absorbNode_grown (now : Timestamp) (hs : s.Named) (hd : d.Sound) (hcopies : s.Copies d)
    (he : e ∈ s.entities) (hportrays : s.Portrays node e) (hx : x ∈ d.entities)
    (hname : x.name = node.name) :
    ∃ count after, d.absorbNode now x node = .ok (count, after) ∧
      Grown s d (fun _ => False) (fun _ _ _ => False) after := by
  have hcopy := copy_of_name hs hcopies he hx (hname.trans hportrays.name)
  let aliases := aliasUnionText [x.aliases.getD "", node.aliases.getD ""]
  let named := if aliases = x.aliases then d
    else d.modifyEntity x.id fun e => { e with aliases, updatedAt := now }
  have hsame : aliasUnion [aliases.getD ""] = aliasUnion [x.aliases.getD ""] := by
    rw [aliasUnion_aliasUnionText, hportrays.aliases, aliasUnion_pair hcopy.aliases]
  have hnamed : Grown s d (fun _ => False) (fun _ _ _ => False) named := by
    unfold named
    split
    · exact .refl hd hcopies
    · refine grown_modifyEntity hd hcopies
        (setAliases_write now d x.id (nonBlank?_aliasUnionText _)) fun row hrow hid => ?_
      obtain rfl := hd.keyed.entities.unique hrow hx hid
      exact ⟨rfl, rfl, rfl, rfl, hsame⟩
  have hobservations : named.observations = d.observations := by
    unfold named
    split <;> rfl
  have hknown : unseen (named.contentsOf x.id) node.observations = [] := by
    refine unseen_eq_nil.2 fun draft hdraft => ?_
    rw [hportrays.observations] at hdraft
    obtain ⟨o, ho, rfl⟩ := List.mem_map.1 hdraft
    have hthere : (o.content, o.createdAt) ∈ d.recorded x.id := by
      rw [hcopy.recorded]
      exact List.mem_map_of_mem ho
    obtain ⟨o', ho', hsaid⟩ := List.mem_map.1 hthere
    rw [contentsOf, observationsOf, hobservations]
    exact List.mem_map.2 ⟨o', ho', congrArg Prod.fst hsaid⟩
  have hrefresh := grown_refreshCount now hnamed.sound hnamed.copies x.id
  refine ⟨0, named.refreshCount now x.id, ?_, (hnamed.trans hrefresh).congr (by simp) (by simp)⟩
  unfold absorbNode
  dsimp only
  refine bind_eq_ok.2 ⟨([], named), ?_, rfl⟩
  exact (congrArg (fun drafts => appendObservations now x.id drafts named) hknown).trans rfl

theorem momentOr_draftsOf (now : Timestamp) (hs : s.Settled) (id : Id) :
    (s.draftsOf id).map (fun draft => (draft.content, draft.momentOr now)) = s.recorded id := by
  rw [draftsOf, List.map_map]
  refine List.map_congr_left fun o ho => ?_
  have hmoment := (hs.observations o (List.mem_filter.1 ho).1).createdAt
  simp [ObservationDraft.momentOr, hmoment]

/-- Observations of a new entity are told of it and of no other. -/
theorem recorded_append {rows : List Observation} {id : Id} (hd : d.Linked)
    (hnew : ¬ d.HasEntity id) (hrows : ∀ row ∈ rows, row.entityId = id) (after : Store)
    (hafter : after.observations = d.observations ++ rows) :
    after.recorded id = rows.map (fun row => (row.content, row.createdAt)) ∧
      ∀ other, d.HasEntity other → after.recorded other = d.recorded other := by
  have hnone : d.observationsOf id = [] := by
    refine List.filter_eq_nil_iff.2 fun o ho => ?_
    have howner := hd.owner o ho
    simp only [decide_eq_true_eq]
    rintro rfl
    exact hnew howner
  have hall : (rows.filter fun row => row.entityId = id) = rows :=
    List.filter_eq_self.2 fun row hrow => by simp [hrows row hrow]
  constructor
  · rw [recorded, observationsOf, hafter, List.filter_append, hall]
    exact congrArg (fun old => List.map _ (old ++ rows)) hnone
  · intro other hother
    have hempty : (rows.filter fun row => row.entityId = other) = [] := by
      refine List.filter_eq_nil_iff.2 fun row hrow => ?_
      simp only [decide_eq_true_eq]
      rintro rfl
      exact hnew (hrows row hrow ▸ hother)
    rw [recorded, observationsOf, hafter, List.filter_append, hempty, List.append_nil]
    rfl

/-- The first node of an entity makes the copy of it. -/
theorem insertNode_grown (now : Moment) (hs : s.Sound) (hd : d.Sound) (hcopies : s.Copies d)
    (he : e ∈ s.entities) (hportrays : s.Portrays node e)
    (hfree : d.entityNamed? (trim node.name) = none) :
    ∃ row count after, d.insertNode now.text node = .ok (row, count, after) ∧
      Grown s d (fun name => name = node.name) (fun _ _ _ => False) after ∧
      ∃ x ∈ after.entities, x.id = row.id ∧ x.name = node.name := by
  have hsettled := hs.settled.entities e he
  obtain ⟨row, first, hrow⟩ : ∃ row first, d.appendEntity now.text
      { name := node.name, entityType := node.entityType, aliases := node.aliases
        description := node.description } = .ok (row, first) :=
    appendEntity_of_settled now.text (hportrays.name ▸ hsettled.name)
      (hportrays.entityType ▸ hsettled.entityType) rfl
  obtain ⟨_, _, hfields, hfirst⟩ := appendEntity_eq_ok hrow
  have hentities : first.entities = d.entities ++ [row] := by rw [hfirst]
  have hobservations : first.observations = d.observations := by rw [hfirst]
  have hrelations : first.relations = d.relations := by rw [hfirst]
  have hname : row.name = node.name := by
    rw [hfields, hportrays.name]
    exact hsettled.name.trim_eq
  have hnew : ¬ d.HasEntity row.id := by
    rintro ⟨x, hx, hid⟩
    rw [hfields] at hid
    exact Int.lt_irrefl _ (hid ▸ hd.keyed.entities.lt_bound x hx)
  have hcontent : ∀ draft ∈ node.observations, Field.observation.fault? draft.content = none := by
    intro draft hdraft
    rw [hportrays.observations] at hdraft
    obtain ⟨o, ho, rfl⟩ := List.mem_map.1 hdraft
    exact (hs.settled.observations o (List.mem_filter.1 ho).1).content
  obtain ⟨rows, next, hrows, howner, hsaid⟩ :=
    appendObservations_of_settled now.text row.id hcontent first
  let second : Store :=
    { first with observations := first.observations ++ rows, nextObservation := next }
  obtain ⟨hown, hothers⟩ := recorded_append hd.linked hnew howner second
    (congrArg (· ++ rows) hobservations)
  have hsecond : second.Sound := hd.writes (.head (appendEntity_write hrow hfree)
    (appendObservations_writes (hasEntity_appendEntity hrow) hrows))
  have hmem : ∀ x, x ∈ second.entities ↔ x ∈ d.entities ∨ x = row := by
    intro x
    show x ∈ first.entities ↔ _
    simp [hentities]
  have hstays : Stays d second := fun x hx => ⟨x, (hmem x).2 (.inl hx), rfl, rfl⟩
  have hgrown : Grown s d (fun name => name = node.name) (fun _ _ _ => False) second := by
    constructor
    · exact hsecond
    · intro x hx
      rcases (hmem x).1 hx with hold | rfl
      · obtain ⟨e', he', hcopy⟩ := hcopies x hold
        exact ⟨e', he', { hcopy with
          recorded := (hothers x.id ⟨x, hold, rfl⟩).trans hcopy.recorded }⟩
      · refine ⟨e, he, hname.trans hportrays.name, ?_, ?_, ?_, ?_⟩
        · rw [hfields, hportrays.entityType]
          exact hsettled.entityType.trim_eq
        · rw [hfields, hportrays.description]
          exact hsettled.description
        · rw [hfields, hportrays.aliases]
          exact congrArg (fun aliases => aliasUnion [Option.getD aliases ""]) hsettled.aliases
        · rw [hown, hsaid, hportrays.observations]
          exact momentOr_draftsOf now.text hs.settled e.id
    · exact hstays
    · intro name
      constructor
      · rintro ⟨x, hx, rfl⟩
        rcases (hmem x).1 hx with hold | rfl
        · exact .inl ⟨x, hold, rfl⟩
        · exact .inr hname
      · rintro (⟨x, hx, rfl⟩ | rfl)
        · exact ⟨x, (hmem x).2 (.inl hx), rfl⟩
        · exact ⟨row, (hmem row).2 (.inr rfl), hname⟩
    · intro source target type
      rw [relates_of_stays hd.linked hsecond.keyed hstays hrelations, or_false]
  have hrefresh := grown_refreshCount now.text hgrown.sound hgrown.copies row.id
  refine ⟨row, rows.length, second.refreshCount now.text row.id, ?_,
    (hgrown.trans hrefresh).congr (by simp) (by simp), ?_⟩
  · exact bind_eq_ok.2 ⟨_, hrow, bind_eq_ok.2 ⟨_, hrows, rfl⟩⟩
  · obtain ⟨x, hx, hid, hkept⟩ := hrefresh.stays row ((hmem row).2 (.inr rfl))
    exact ⟨x, hx, hid, hkept.trans hname⟩

/-- Applying a node gives the copy of what it portrays and links it to its parent. -/
theorem admitNode_grown (now : Moment) (hs : s.Sound) (hd : d.Sound) (hcopies : s.Copies d)
    {above : Option String} {parent : Option Id} (hfaithful : s.Faithful above node)
    (hparent : d.Stands above parent) :
    ∃ effect after id, d.admitNode now.text node (.create none) parent = .ok (effect, after) ∧
      effect.resolved = some id ∧ after.Stands (some node.name) (some id) ∧
      Grown s d (fun name => name = node.name)
        (fun source target type => above = some target ∧ source = node.name ∧ type = linkType node)
        after := by
  obtain ⟨e, he, hportrays⟩ := hfaithful.portrays
  have htrim : trim node.name = node.name :=
    hportrays.name ▸ (hs.settled.entities e he).name.trim_eq
  simp only [admitNode, Decision.parent?, Option.none_or]
  cases hfind : d.entityNamed? (trim node.name) with
  | some x =>
    obtain ⟨hx, hname⟩ := hd.named.entityNamed?_eq_some.1 hfind
    rw [htrim] at hname
    obtain ⟨count, mid, habsorb, hmid⟩ :=
      absorbNode_grown now.text hs.named hd hcopies he hportrays hx hname
    obtain ⟨x', hx', hid, hkept⟩ := hmid.stays x hx
    obtain ⟨linked, after, hlink, hafter⟩ := linkToParent_grown now.text hmid.sound hmid.copies hx'
      (hkept.trans hname) hfaithful (hparent.stays hmid.stays)
    rw [hid] at hlink
    refine ⟨_, after, x.id, bind_eq_ok.2 ⟨_, habsorb, bind_eq_ok.2 ⟨_, hlink, rfl⟩⟩, rfl, ?_, ?_⟩
    · obtain ⟨x'', hx'', hid', hkept'⟩ := (hmid.stays.trans hafter.stays) x hx
      exact ⟨x'', hx'', hkept'.trans hname, congrArg some hid'.symm⟩
    · exact ((hmid.trans hafter).congr (by simp) (by simp)).known ⟨x, hx, hname⟩
  | none =>
    obtain ⟨row, count, mid, hinsert, hmid, x, hx, hid, hname⟩ :=
      insertNode_grown now hs hd hcopies he hportrays hfind
    obtain ⟨linked, after, hlink, hafter⟩ := linkToParent_grown now.text hmid.sound hmid.copies hx
      hname hfaithful (hparent.stays hmid.stays)
    rw [hid] at hlink
    refine ⟨_, after, row.id, bind_eq_ok.2 ⟨_, hinsert, bind_eq_ok.2 ⟨_, hlink, rfl⟩⟩, rfl, ?_, ?_⟩
    · obtain ⟨x', hx', hid', hkept⟩ := hafter.stays x hx
      exact ⟨x', hx', hkept.trans hname, congrArg some (hid.symm.trans hid'.symm)⟩
    · exact (hmid.trans hafter).congr (by simp) (by simp)

end Apply
end Store

/-! ## Walking the trees -/

theorem ImportReport.failures_tally (report : ImportReport) (effect : NodeEffect) :
    (report.tally effect).failures = report.failures := by
  obtain ⟨fate, resolved, observations, relations⟩ := effect
  cases fate <;> rfl

namespace ImportRun

variable {s : Store}

theorem visit_grown (now : Moment) (hs : s.Sound) {run : ImportRun} (hd : run.store.Sound)
    (hcopies : s.Copies run.store) {node : TreeNode} {above : Option String} {parent : Option Id}
    (hfaithful : s.Faithful above node) (hparent : run.store.Stands above parent)
    (path : NodePath) :
    ∃ run' id, run.visit now.text [] node path parent = (run', some id) ∧
      run'.report.failures = run.report.failures ∧
      run'.store.Stands (some node.name) (some id) ∧
      Store.Grown s run.store (fun name => name = node.name)
        (fun source target type => above = some target ∧ source = node.name ∧
          type = Store.linkType node) run'.store := by
  obtain ⟨effect, after, id, hok, hresolved, hstands, hgrown⟩ :=
    Store.admitNode_grown now hs hd hcopies hfaithful hparent
  refine ⟨{ store := after, report := run.report.tally effect }, id, ?_, ?_, hstands, hgrown⟩
  · unfold visit
    have hdecision : Decisions.decisionFor [] path = .create none := rfl
    rw [hdecision, hok]
    exact congrArg (Prod.mk _) hresolved
  · exact run.report.failures_tally effect

/-- A walk over faithful places has no new failures, and the store gains what it passes. -/
structure Walked (s : Store) (places : Option String → TreeNode → Prop) (before after : ImportRun) :
    Prop where
  failures : after.report.failures = before.report.failures
  grown : s.Grown before.store (fun name => ∃ q node, places q node ∧ node.name = name)
    (fun source target type => ∃ node, places (some target) node ∧ node.name = source ∧
      Store.linkType node = type) after.store

theorem Walked.refl {run : ImportRun} (hd : run.store.Sound) (hcopies : s.Copies run.store) :
    Walked s (fun _ _ => False) run run where
  failures := rfl
  grown := (Store.Grown.refl hd hcopies).congr (by simp) (by simp)

theorem Walked.trans {a b c : ImportRun} {places places' both : Option String → TreeNode → Prop}
    (h : Walked s places a b) (h' : Walked s places' b c)
    (hboth : ∀ q node, both q node ↔ places q node ∨ places' q node) : Walked s both a c where
  failures := h'.failures.trans h.failures
  grown := (h.grown.trans h'.grown).congr
    (fun name => by simp only [hboth, or_and_right, exists_or])
    (fun source target type => by simp only [hboth, or_and_right, exists_or])

section Descend

variable {now : Moment}

mutual
/-- Importing a faithful tree gains what is in the tree. -/
theorem descend_walked (hs : s.Sound) {run : ImportRun} (hd : run.store.Sound)
    (hcopies : s.Copies run.store) {above : Option String} {parent : Option Id}
    (hparent : run.store.Stands above parent) (path : NodePath) :
    (top : TreeNode) → (∀ q node, top.Within above q node → s.Faithful q node) →
      Walked s (top.Within above) run (run.descend now.text [] path parent top)
  | ⟨name, entityType, aliases, description, observations, relationType, children⟩, hfaithful => by
    obtain ⟨mid, id, hvisit, hfailures, hstands, hgrown⟩ :=
      visit_grown now hs hd hcopies (hfaithful _ _ .here) hparent path
    have hmid := descendAll_walked hs hgrown.sound hgrown.copies hstands path 0 children
      fun child hchild q node hwithin =>
        hfaithful q node (TreeNode.within_iff.2 (.inr ⟨child, hchild, hwithin⟩))
    rw [descend, hvisit]
    have hfirst : Walked s (fun q node => q = above ∧ node =
        ⟨name, entityType, aliases, description, observations, relationType, children⟩) run mid :=
      ⟨hfailures, hgrown.congr (by simp [eq_comm]) (by simp [eq_comm])⟩
    exact hfirst.trans hmid fun _ _ => TreeNode.within_iff
/-- Importing faithful trees below a node gains what is in the trees. -/
theorem descendAll_walked (hs : s.Sound) {run : ImportRun} (hd : run.store.Sound)
    (hcopies : s.Copies run.store) {above : Option String} {parent : Option Id}
    (hparent : run.store.Stands above parent) (path : NodePath) (index : Nat) :
    (nodes : List TreeNode) →
      (∀ top ∈ nodes, ∀ q node, top.Within above q node → s.Faithful q node) →
      Walked s (fun q node => ∃ top ∈ nodes, top.Within above q node) run
        (run.descendAll now.text [] path parent index nodes)
  | [], _ => by
    rw [descendAll]
    exact (Walked.refl hd hcopies).trans (.refl hd hcopies) (by simp)
  | top :: rest, hfaithful => by
    have hfirst := descend_walked hs hd hcopies hparent (path.child index) top
      (hfaithful top List.mem_cons_self)
    have hrest := descendAll_walked hs hfirst.grown.sound hfirst.grown.copies
      (hparent.stays hfirst.grown.stays) path (index + 1) rest
      fun other hother => hfaithful other (List.mem_cons_of_mem _ hother)
    rw [descendAll]
    exact hfirst.trans hrest (by simp)
end

/-- Importing faithful trees gains what is in the trees. -/
theorem descendRoots_walked (hs : s.Sound) {run : ImportRun} (hd : run.store.Sound)
    (hcopies : s.Copies run.store) (index : Nat) {nodes : List TreeNode}
    (hfaithful : ∀ top ∈ nodes, ∀ q node, top.Within none q node → s.Faithful q node) :
    Walked s (fun q node => ∃ top ∈ nodes, top.Within none q node) run
      (run.descendRoots now.text [] index nodes) := by
  induction nodes generalizing index run with
  | nil => exact (Walked.refl hd hcopies).trans (.refl hd hcopies) (by simp)
  | cons top rest ih =>
    have hroot : run.store.Stands none none := rfl
    have hfirst : Walked s (top.Within none) run
        (run.descend now.text [] { root := index } none top) :=
      descend_walked hs hd hcopies hroot _ top (hfaithful top List.mem_cons_self)
    exact hfirst.trans (ih hfirst.grown.sound hfirst.grown.copies (index + 1)
      fun other hother => hfaithful other (List.mem_cons_of_mem _ hother)) (by simp)

end Descend

end ImportRun

/-- Importing a faithful document into the empty store succeeds, and what the store then holds is
what the document tells. -/
theorem runImport_grown (now : Moment) {s : Store} (hs : s.Sound) {document : TreeDocument}
    (hfaithful : ∀ top ∈ document.roots, ∀ q node, top.Within none q node → s.Faithful q node)
    (mode : ImportMode) :
    (Store.runImport now.text document [] mode .empty).1.success = true ∧
      s.Grown .empty
        (fun name => ∃ q node, (∃ top ∈ document.roots, top.Within none q node) ∧ node.name = name)
        (fun source target type => ∃ node,
          (∃ top ∈ document.roots, top.Within none (some target) node) ∧ node.name = source ∧
            Store.linkType node = type)
        (Store.runImport now.text document [] mode .empty).2 := by
  have hcopies : s.Copies .empty := fun e he => absurd he List.not_mem_nil
  have hwalked : ImportRun.Walked s (fun q node => ∃ top ∈ document.roots, top.Within none q node)
      { store := .empty }
      (ImportRun.descendRoots now.text [] 0 { store := .empty } document.roots) :=
    ImportRun.descendRoots_walked hs Store.sound_empty hcopies 0 hfaithful
  have hsuccess : (ImportRun.descendRoots now.text [] 0 { store := .empty }
      document.roots).report.success = true :=
    List.isEmpty_iff.2 hwalked.failures
  unfold Store.runImport
  dsimp only
  rw [if_neg (by simp [hsuccess])]
  exact ⟨hsuccess, hwalked.grown⟩
end MemoryGraph
