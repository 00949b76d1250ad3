-- SUMMARY: What a comparison says of the children of a document against what importing the document does.
import MemoryGraph.Proofs.Compared
import MemoryGraph.Proofs.Preservation

/-!
# A comparison as a forecast

A comparison looks at the store as it is, an import at the store as the visits so
far have left it. Where the names in a document are all different, the visits to
other nodes neither create the entity of a name nor tell it anything, so that
both look at the same. They look for different things though: a comparison for
the name and the type of a child, an import for its name alone.
-/
namespace MemoryGraph

open Text

namespace Store

variable {s after : Store} {name : String} {now : Timestamp} {node : TreeNode}
  {treeParent : Option Id} {effect : NodeEffect}

/-! ## What is known under a name -/

/-- The entity of a name with what its observations say. -/
def knownAs (s : Store) (name : String) : Option (Id × List String) :=
  (s.entityNamed? name).map fun e => (e.id, s.contentsOf e.id)

/-- Rows that keep their names and ids are known as before, when the entity of the name is told
nothing. -/
theorem knownAs_of_rows {rows : List Entity} {change : Entity → Entity}
    (hentities : after.entities = rows.map change)
    (hfind : rows.find? (fun e => e.name = name) = s.entityNamed? name)
    (hname : ∀ e, (change e).name = e.name) (hid : ∀ e, (change e).id = e.id)
    (hcontents : ∀ e, s.entityNamed? name = some e → after.contentsOf e.id = s.contentsOf e.id) :
    after.knownAs name = s.knownAs name := by
  have hfound : after.entityNamed? name = (s.entityNamed? name).map change := by
    rw [entityNamed?, hentities, List.find?_map, ← hfind]
    simp only [Function.comp_def, hname]
  unfold knownAs
  rw [hfound]
  cases he : s.entityNamed? name with
  | none => rfl
  | some e => simp [hid, hcontents e he]

theorem Adds.contentsOf_of_ne {parent : Option Id} {id other : Id}
    {drafts : List ObservationDraft} (h : s.Adds now node parent id drafts effect after)
    (hne : other ≠ id) : after.contentsOf other = s.contentsOf other := by
  rw [h.contentsOf, if_neg hne, List.append_nil]

theorem Adds.observations_eq {parent : Option Id} {id : Id} {drafts : List ObservationDraft}
    (h : s.Adds now node parent id drafts effect after) : effect.observations = drafts.length := by
  obtain ⟨rows, _, hlength, hnoted⟩ := h.observations
  have hcount := congrArg List.length hnoted.contents
  rwa [List.length_map, List.length_map, hlength] at hcount

/-- A node of another name changes nothing of what is known under a name. -/
theorem Admitted.knownAs_of_ne {parent : Option Id} (hs : s.Keyed)
    (h : s.Admitted now node (.create parent) treeParent effect after)
    (hne : trim node.name ≠ name) : after.knownAs name = s.knownAs name := by
  cases h with
  | skipped hskip _ => cases hskip
  | @merged target _ _ htarget _ hentities hadds =>
    refine knownAs_of_rows hentities rfl ?_ ?_ ?_
    · intro e
      split <;> rfl
    · intro e
      split <;> rfl
    · intro e he
      refine hadds.contentsOf_of_ne fun hid => hne ?_
      have hsame : e = target :=
        hs.entities.unique (mem_of_entityNamed? he) (mem_of_mergeTarget? htarget) hid
      rw [← entityNamed?_name htarget, ← hsame, entityNamed?_name he]
  | @created _ row _ _ _ _ hrow _ hentities hadds =>
    refine knownAs_of_rows hentities ?_ ?_ ?_ ?_
    · have hother : [row].find? (fun e => e.name = name) = none := by
        simpa [hrow, TreeNode.newEntity] using hne
      rw [List.find?_append, hother, Option.or_none]
      rfl
    · intro e
      split <;> rfl
    · intro e
      split <;> rfl
    · intro e he
      refine hadds.contentsOf_of_ne (Int.ne_of_lt ?_)
      rw [hrow]
      exact hs.entities.lt_bound e (mem_of_entityNamed? he)

/-! ## What a node meets -/

/-- Whether a node says something that is not known under its name. -/
def TellsMore (s : Store) (node : TreeNode) : Prop :=
  match s.knownAs (trim node.name) with
  | some (_, contents) => ∃ draft ∈ node.observations, draft.content ∉ contents
  | none => node.observations ≠ []

/-- A node that is to be created is created when nothing is known under its name. -/
theorem Admitted.fate_of_create {parent : Option Id}
    (h : s.Admitted now node (.create parent) treeParent effect after) :
    effect.fate = if s.knownAs (trim node.name) = none then .created else .merged := by
  cases h with
  | skipped hskip _ => cases hskip
  | merged htarget hfate _ _ =>
    have hknown : s.entityNamed? (trim node.name) = some _ := htarget
    simp [knownAs, hknown, hfate]
  | created _ hfree _ hfate _ _ => simp [knownAs, hfree, hfate]

/-- A node that is to be created stands for the entity that is known under its name. -/
theorem Admitted.resolved_of_known {parent : Option Id}
    (h : s.Admitted now node (.create parent) treeParent effect after) {id : Id}
    {contents : List String} (hknown : s.knownAs (trim node.name) = some (id, contents)) :
    effect.resolved = some id := by
  cases h with
  | skipped hskip _ => cases hskip
  | @merged target _ _ htarget _ _ hadds =>
    have hfound : s.entityNamed? (trim node.name) = some target := htarget
    rw [knownAs, hfound] at hknown
    cases hknown
    exact hadds.resolved
  | created _ hfree _ _ _ _ =>
    rw [knownAs, hfree] at hknown
    cases hknown

/-- A node that is to be created adds observations when it says more than is known. -/
theorem Admitted.observations_of_create {parent : Option Id}
    (h : s.Admitted now node (.create parent) treeParent effect after) :
    0 < effect.observations ↔ s.TellsMore node := by
  cases h with
  | skipped hskip _ => cases hskip
  | @merged target _ _ htarget _ _ hadds =>
    have hfound : s.entityNamed? (trim node.name) = some target := htarget
    rw [hadds.observations_eq, List.length_pos_iff, ne_eq, unseen_eq_nil]
    simp [TellsMore, knownAs, hfound]
  | created _ hfree _ _ _ hadds =>
    rw [hadds.observations_eq, List.length_pos_iff]
    simp [TellsMore, knownAs, hfree]

end Store

/-! ## Visits to nodes of different names -/

namespace Visit

variable {now : Moment} {s : Store} {visits : List (Visit now.text [])} {name : String}

theorem knownAs_after (v : Visit now.text []) (h : v.before.Keyed) (hne : trim v.node.name ≠ name) :
    v.after.knownAs name = v.before.knownAs name := by
  rcases v.cases with ⟨_, hafter, _⟩ | ⟨_, effect, _, _, hadmitted⟩
  · rw [hafter]
  · exact hadmitted.knownAs_of_ne h hne

/-- Visits to nodes of other names change nothing of what is known under a name. -/
theorem Chained.knownAs (h : Chained s visits) (hs : s.Keyed)
    (hne : ∀ v ∈ visits, trim v.node.name ≠ name) :
    (storeAfter s visits).knownAs name = s.knownAs name := by
  have hrelated : s.Keyed → (storeAfter s visits).Keyed ∧
      (storeAfter s visits).knownAs name = s.knownAs name := by
    refine h.relates (R := fun a b => a.Keyed → b.Keyed ∧ b.knownAs name = a.knownAs name)
      (fun a ha => ⟨ha, rfl⟩) ?_ ?_
    · intro a b c hab hbc ha
      obtain ⟨hb, hfirst⟩ := hab ha
      obtain ⟨hc, hsecond⟩ := hbc hb
      exact ⟨hc, hsecond.trans hfirst⟩
    · intro v hv hbefore
      exact ⟨v.keyed_after hbefore, v.knownAs_after hbefore (hne v hv)⟩
  exact (hrelated hs).2

/-- Where the names are all different, a visit finds known under its name what was known before all
visits. -/
theorem Chained.knownAs_before (h : Chained s visits) (hs : s.Keyed)
    (hnames : (visits.map fun v => trim v.node.name).Nodup) :
    ∀ v ∈ visits, v.before.knownAs (trim v.node.name) = s.knownAs (trim v.node.name) := by
  intro v hv
  obtain ⟨earlier, later, rfl⟩ := List.append_of_mem hv
  obtain ⟨hearlier, hbefore, _⟩ := chained_append.1 h
  rw [List.map_append, List.nodup_append] at hnames
  obtain ⟨_, _, hapart⟩ := hnames
  rw [hbefore]
  refine hearlier.knownAs hs fun u hu => ?_
  exact hapart _ (List.mem_map_of_mem hu) _ (List.mem_map_of_mem List.mem_cons_self)

end Visit

/-! ## What a comparison meets -/

namespace Store

variable {s : Store} {node : TreeNode} {path : NodePath} {parentName : String}

theorem Named.entityOf?_eq_some (h : s.Named) {name entityType : String} {e : Entity} :
    s.entityOf? name entityType = some e ↔
      e ∈ s.entities ∧ e.name = name ∧ e.entityType = entityType := by
  constructor
  · intro hfind
    exact ⟨List.mem_of_find?_eq_some hfind, by simpa using List.find?_some hfind⟩
  · rintro ⟨he, rfl, rfl⟩
    cases hfind : s.entityOf? e.name e.entityType with
    | none => exact absurd (List.find?_eq_none.1 hfind e he) (by simp)
    | some other =>
      have hother : other.name = e.name ∧ other.entityType = e.entityType := by
        simpa using List.find?_some hfind
      rw [List.inj_on_of_nodup_map h (List.mem_of_find?_eq_some hfind) he hother.1]

/-- Whether an entity has the name of a node and another type. -/
def HasNamesake (s : Store) (node : TreeNode) : Prop :=
  ∃ e ∈ s.entities, e.name = trim node.name ∧ e.entityType ≠ trim node.entityType

/-- Without a namesake a comparison finds what is known under the name of a child. -/
theorem entityOf?_of_no_namesake (h : s.Named) (hnone : ¬ s.HasNamesake node) :
    s.entityOf? (trim node.name) (trim node.entityType) = s.entityNamed? (trim node.name) := by
  rw [Option.ext_iff]
  intro e
  rw [h.entityOf?_eq_some, h.entityNamed?_eq_some]
  constructor
  · exact fun hfound => ⟨hfound.1, hfound.2.1⟩
  · rintro ⟨he, hname⟩
    by_contra hother
    exact hnone ⟨e, he, hname, fun htype => hother ⟨he, hname, htype⟩⟩

theorem entityOf?_of_namesake (h : s.Named) (hsome : s.HasNamesake node) :
    s.entityOf? (trim node.name) (trim node.entityType) = none := by
  obtain ⟨e, he, hname, htype⟩ := hsome
  rw [Option.eq_none_iff_forall_ne_some]
  intro other hother
  obtain ⟨hmem, hsame, hwanted⟩ := h.entityOf?_eq_some.1 hother
  have hall : other = e := List.inj_on_of_nodup_map h hmem he (hsame.trans hname.symm)
  exact htype (hall ▸ hwanted)

theorem childPlan_eq_create :
    (s.compareChild node path parentName).childPlan = some .create ↔
      s.entityOf? (trim node.name) (trim node.entityType) = none := by
  simp only [compareChild]
  cases s.entityOf? (trim node.name) (trim node.entityType) with
  | none => simp
  | some e => by_cases hunder : s.isUnder e.id parentName = true <;> simp [hunder]

/-- Without a namesake a comparison says of a child what is known and what is not. -/
theorem compareChild_of_no_namesake (h : s.Named) (hnone : ¬ s.HasNamesake node) :
    ((s.compareChild node path parentName).childPlan = some .create ↔
        s.knownAs (trim node.name) = none) ∧
      ((s.compareChild node path parentName).willAddObservations = true ↔ s.TellsMore node) := by
  have hfound := entityOf?_of_no_namesake h hnone
  constructor
  · rw [childPlan_eq_create, hfound, knownAs, Option.map_eq_none_iff]
  · simp only [compareChild, hfound, TellsMore, knownAs]
    cases s.entityNamed? (trim node.name) with
    | none => simp
    | some e => simp [saysMore]

theorem compareChild_of_namesake (h : s.Named) (hsome : s.HasNamesake node) :
    (s.compareChild node path parentName).childPlan = some .create ∧
      ((s.compareChild node path parentName).willAddObservations = true ↔
        node.observations ≠ []) := by
  have hfound := entityOf?_of_namesake h hsome
  exact ⟨childPlan_eq_create.2 hfound, by simp [compareChild, hfound]⟩

theorem Named.knownAs_eq (h : s.Named) {e : Entity} (he : e ∈ s.entities) :
    s.knownAs e.name = some (e.id, s.contentsOf e.id) := by
  rw [knownAs, h.entityNamed?_eq_some.2 ⟨he, rfl⟩]
  rfl

end Store

/-! ## Forecasts -/

/-- What the comparison of a child says and what the visit to this child does. -/
structure Foretold {now : Timestamp} (s : Store) (v : Visit now []) (r : NodeComparison) : Prop where
  /-- The visit creates an entity, or it merges the child and creates none. -/
  fate : v.fate? = some .created ∧ v.after.entities.length = v.before.entities.length + 1 ∨
    v.fate? = some .merged ∧ v.after.entities.length = v.before.entities.length
  created : ¬ s.HasNamesake v.node → (r.childPlan = some .create ↔ v.fate? = some .created)
  observed : ¬ s.HasNamesake v.node →
    (r.willAddObservations = true ↔ v.before.observations.length < v.after.observations.length)
  /-- A child with a namesake is to be created by the comparison, and is merged into the namesake by
  the import. -/
  namesake : ∀ e ∈ s.entities, e.name = trim v.node.name → e.entityType ≠ trim v.node.entityType →
    r.childPlan = some .create ∧ v.fate? = some .merged ∧ v.resolved = some e.id ∧
      (r.willAddObservations = true ↔ v.node.observations ≠ [])

/-- What a visit that succeeds does, by what is known under the name of its node. -/
structure Visit.Foreseen {now : Timestamp} (s : Store) (v : Visit now []) : Prop where
  fate : v.fate? = some (if s.knownAs (trim v.node.name) = none then .created else .merged)
  resolved : ∀ id contents, s.knownAs (trim v.node.name) = some (id, contents) →
    v.resolved = some id
  observed : v.before.observations.length < v.after.observations.length ↔ s.TellsMore v.node

theorem Visit.foreseen_of_known {now : Timestamp} {s : Store} {v : Visit now []}
    (hok : v.failure? = none)
    (hknown : v.before.knownAs (trim v.node.name) = s.knownAs (trim v.node.name)) :
    v.Foreseen s := by
  rcases v.cases with ⟨_, _, cause, _, hfailed⟩ | ⟨_, effect, _, heffect, hadmitted⟩
  · rw [hok] at hfailed
    cases hfailed
  · have htells : v.before.TellsMore v.node ↔ s.TellsMore v.node := by
      simp only [Store.TellsMore, hknown]
    constructor
    case fate =>
      rw [fate?, heffect, ← hknown]
      exact congrArg some hadmitted.fate_of_create
    case resolved =>
      intro id contents hfound
      rw [← hknown] at hfound
      rw [Visit.resolved_of_effect heffect, hadmitted.resolved_of_known hfound]
    case observed =>
      rw [v.length_observations, heffect, ← htells, ← hadmitted.observations_of_create]
      exact Nat.lt_add_right_iff_pos

/-- The comparison of a child foretells a visit that finds what the comparison found. -/
theorem foretold_of_known {now : Timestamp} {s : Store} (hs : s.Named) {v : Visit now []}
    (hok : v.failure? = none)
    (hknown : v.before.knownAs (trim v.node.name) = s.knownAs (trim v.node.name))
    (path : NodePath) (parentName : String) :
    Foretold s v (s.compareChild v.node path parentName) := by
  have hforeseen : v.Foreseen s := Visit.foreseen_of_known hok hknown
  constructor
  case fate =>
    rw [v.length_entities, hforeseen.fate]
    split
    · exact .inl ⟨rfl, rfl⟩
    · exact .inr ⟨rfl, rfl⟩
  case created =>
    intro hnone
    rw [(Store.compareChild_of_no_namesake hs hnone).1, hforeseen.fate]
    split <;> simp_all
  case observed =>
    intro hnone
    rw [(Store.compareChild_of_no_namesake hs hnone).2, hforeseen.observed]
  case namesake =>
    intro e he hname htype
    obtain ⟨hplan, hadds⟩ :=
      @Store.compareChild_of_namesake s v.node path parentName hs ⟨e, he, hname, htype⟩
    have hfound : s.knownAs (trim v.node.name) = some (e.id, s.contentsOf e.id) :=
      hname ▸ hs.knownAs_eq he
    refine ⟨hplan, ?_, hforeseen.resolved _ _ hfound, hadds⟩
    rw [hforeseen.fate, hfound]
    rfl

/-- The comparison of a document against the visits of an import. -/
structure Forecasts {now : Timestamp} (s : Store) (document : TreeDocument)
    (visits : List (Visit now [])) (after : Store) : Prop where
  /-- The import is the chain of its visits to the nodes. -/
  places : visits.map Visit.place = document.places
  chained : Visit.Chained s visits ∧ Visit.storeAfter s visits = after
  /-- Every node has one visit and one result, and the results of children foretell the visits. -/
  foretold : List.Forall₂ (fun v r => r.path = v.path ∧ (v.path.below ≠ [] → Foretold s v r))
    visits (s.compareDocument document).results

/-- The comparison of a document whose names are all different foretells which children an import of
the document creates and which get observations, but for children with a namesake. -/
theorem forecast_of_names {s : Store} (h : Reachable s) (now : Moment) {document : TreeDocument}
    (hnames : (document.places.map fun place => trim place.2.name).Nodup) {mode : ImportMode}
    (hok : (s.runImport now.text document [] mode).1.success = true) :
    Forecasts s document (s.visits now.text [] document)
      (s.runImport now.text document [] mode).2 := by
  obtain ⟨hsucceed, hresult⟩ := runImport_of_success hok
  have hchained : Visit.Chained s (s.visits now.text [] document) := Store.chained_visits
  have hplaces : (s.visits now.text [] document).map Visit.place = document.places :=
    Store.places_visits
  have hknown := by
    rw [← hplaces, List.map_map] at hnames
    exact hchained.knownAs_before h.sound.keyed hnames
  have hplaced : List.Forall₂ (fun place r => s.Compared r place)
      ((s.visits now.text [] document).map Visit.place) (s.compareDocument document).results := by
    rw [hplaces]
    exact (Store.forall₂_compareDocument s document).flip
  have hboth := (List.forall₂_and_left _ _).2
    ⟨fun v hv => And.intro (hsucceed v hv) (hknown v hv), List.forall₂_map_left_iff.1 hplaced⟩
  refine ⟨hplaces, ⟨hchained, by rw [hresult]⟩, hboth.imp ?_⟩
  rintro v r ⟨⟨hsucceeds, hknown⟩, hcompared⟩
  refine ⟨hcompared.path_eq, fun hbelow => ?_⟩
  obtain ⟨parentName, rfl⟩ := hcompared.eq_compareChild hbelow
  exact foretold_of_known h.sound.named hsucceeds hknown v.path parentName

/-- A child that is found under its parent and says something new, one that is found elsewhere and
says nothing new, one that is new, and one with a namesake. -/
theorem forecast_of_children :
    let now : Moment := .ofNanoseconds 0
    let s := Store.run .empty [
      (now, .addEntity { name := "Top", entityType := "Project" }),
      (now, .addEntity { name := "under", entityType := "Note", observations := ["seen"] }),
      (now, .addEntity { name := "aside", entityType := "Note", observations := ["known"] }),
      (now, .addEntity { name := "other", entityType := "Library", observations := ["known"] }),
      (now, .relate 2 1 "part_of")]
    let document : TreeDocument := { roots := [
      { name := "Top", entityType := "Project"
        children := [
          { name := " under", entityType := "Note"
            observations := [{ content := "seen" }, { content := "more" }]
            children := [{ name := "aside", entityType := "Note "
                           observations := [{ content := "known" }] }] },
          { name := "fresh", entityType := "Note" },
          { name := "other", entityType := "Note", observations := [{ content := "known" }] }] }] }
    let result := s.runImport now.text document [] .atomic
    Forecasts s document (s.visits now.text [] document) result.2 ∧
      (s.compareDocument document).results.tail.map
          (fun r => (r.childPlan, r.willAddObservations)) =
        [(some .skip, true), (some .addRelation, false), (some .create, false),
          (some .create, true)] ∧
      (result.1.created, result.1.merged, result.1.observations) = (1, 4, 1) := by
  intro now s document result
  have hnames : (document.places.map fun place => trim place.2.name).Nodup := by decide +kernel
  have hok : result.1.success = true := by decide +kernel
  exact ⟨forecast_of_names (Reachable.empty.run _) now hnames hok, by decide +kernel,
    by decide +kernel⟩

/-- A child is to be created and to get an observation by the comparison; the import merges it into
the entity of its name, which says the same already. -/
theorem namesake_not_foretold :
    let now : Moment := .ofNanoseconds 0
    let s := Store.run .empty [
      (now, .addEntity { name := "Shared", entityType := "Library", observations := ["known"] })]
    let document : TreeDocument := { roots := [
      { name := "Root", entityType := "Project"
        children := [
          { name := "Shared", entityType := "Service", observations := [{ content := "known" }] }] }] }
    let result := s.runImport now.text document [] .atomic
    Reachable s ∧ (document.places.map fun place => trim place.2.name).Nodup ∧
      result.1.success = true ∧
      (s.compareDocument document).results.tail.map
          (fun r => (r.path.below, r.childPlan, r.willAddObservations)) =
        [([0], some .create, true)] ∧
      (s.visits now.text [] document).tail.map (fun v => (v.path.below, v.fate?)) =
        [([0], some .merged)] ∧
      result.1.observations = 0 := by
  intro now s document result
  exact ⟨Reachable.empty.run _, by decide +kernel, by decide +kernel, by decide +kernel,
    by decide +kernel, by decide +kernel⟩

end MemoryGraph
