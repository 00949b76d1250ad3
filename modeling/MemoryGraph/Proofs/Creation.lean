-- SUMMARY: Creating an entity and importing a document of its one node are refused alike and leave the same graph.
import MemoryGraph.Proofs.Visit

/-!
# Creating an entity and importing it

An entity is created from a draft, or from a node without children that says the
same. The two do not check in the same order: a draft is checked as a whole
before its row is written, while the observations of a node are checked each when
it is noted. As checking them all first gives the same, both come down to the
checks of the draft and to one store behind them. They read the clock at moments
of their own, so that they leave the same graph when timestamps are not told
apart.
-/
namespace MemoryGraph

open Text

/-! ## Graphs without their timestamps -/

/-- An entity of which it is not known when it was created and changed. -/
def Entity.untimed (e : Entity) : Entity := { e with createdAt := "", updatedAt := "" }

/-- An observation of which it is not known when it was made. -/
def Observation.untimed (o : Observation) : Observation := { o with createdAt := "" }

/-- A relation of which it is not known when it was made. -/
def Relation.untimed (r : Relation) : Relation := { r with createdAt := "" }

@[simp] theorem Entity.untimed_id (e : Entity) : e.untimed.id = e.id := rfl

/-! ## Drafts as nodes -/

/-- What is given to be noted, without a moment. -/
def EntityDraft.notes (input : EntityDraft) : List ObservationDraft :=
  input.observations.map fun content => { content }

/-- What an entity is created from, as a node without children. -/
def EntityDraft.toNode (relationType : Option String) (input : EntityDraft) : TreeNode where
  name := input.name
  entityType := input.entityType
  aliases := input.aliases
  description := input.description
  observations := input.notes
  relationType

/-- The checks on what is given to create an entity. -/
def EntityDraft.check (input : EntityDraft) : Except Refusal Unit := do
  Field.entityName.validate input.name
  Field.entityType.validate input.entityType
  input.observations.forM Field.observation.validate

/-- What is given to create an entity passes its checks. -/
structure EntityDraft.Fit (input : EntityDraft) : Prop where
  name : Field.entityName.fault? input.name = none
  entityType : Field.entityType.fault? input.entityType = none
  observations : ∀ content ∈ input.observations, Field.observation.fault? content = none

theorem EntityDraft.check_eq_ok {input : EntityDraft} : input.check = .ok () ↔ input.Fit := by
  simp only [check, bind_eq_ok, Store.forM_eq_ok, Field.validate_eq_ok]
  constructor
  · rintro ⟨_, hname, _, htype, hobservations⟩
    exact ⟨Field.validate_eq_ok.1 hname, Field.validate_eq_ok.1 htype, hobservations⟩
  · rintro ⟨hname, htype, hobservations⟩
    exact ⟨(), Field.validate_eq_ok.2 hname, (), Field.validate_eq_ok.2 htype, hobservations⟩

namespace Store

variable {s : Store} {now later : Timestamp} {input : EntityDraft} {id : Id}

/-- A store in which all timestamps are empty. -/
def untimed (s : Store) : Store :=
  { s with
    entities := s.entities.map Entity.untimed
    observations := s.observations.map Observation.untimed
    relations := s.relations.map Relation.untimed }

theorem length_observationsOf_untimed (s : Store) (id : Id) :
    (s.untimed.observationsOf id).length = (s.observationsOf id).length := by
  rw [observationsOf, untimed, List.filter_map, List.length_map]
  rfl

theorem untimed_refreshCount (now : Timestamp) (s : Store) (id : Id) :
    (s.refreshCount now id).untimed = s.untimed.refreshCount "" id := by
  have hrow (e : Entity) :
      Entity.untimed (if e.id = id then
        { e with observationCount := (s.observationsOf id).length, updatedAt := now } else e) =
      if e.untimed.id = id then
        { e.untimed with observationCount := (s.untimed.observationsOf id).length, updatedAt := "" }
      else e.untimed := by
    rw [length_observationsOf_untimed, Entity.untimed_id]
    split <;> rfl
  simp only [refreshCount, modifyEntity, untimed, List.map_map, Function.comp_def]
  simp only [hrow]
  rfl

/-- Notes made at two moments say the same about the same entity, under the same ids. -/
theorem untimed_noteRows (now later : Timestamp) (id next : Id) (drafts : List ObservationDraft) :
    (noteRows now id next drafts).map Observation.untimed =
      (noteRows later id next drafts).map Observation.untimed := by
  induction drafts generalizing next with
  | nil => rfl
  | cons draft rest ih => exact congrArg (_ :: ·) (ih (next + 1))

/-! ## Both ways come to the same -/

/-- A store in which the entity of a draft has its row and its observations are noted. -/
def noted (now : Timestamp) (input : EntityDraft) (s : Store) : Store :=
  let notes := noteRows now s.nextEntity s.nextObservation input.notes
  { s with
    entities := s.entities ++ [(input.toNode none).newEntity now s.nextEntity]
    observations := s.observations ++ notes
    nextEntity := s.nextEntity + 1
    nextObservation := s.nextObservation + notes.length }

/-- The store after the checks of a draft have let it through. -/
def created (now : Timestamp) (input : EntityDraft) (s : Store) : Store :=
  (s.noted now input).refreshCount now s.nextEntity

theorem untimed_noted (now later : Timestamp) (input : EntityDraft) (s : Store) :
    (s.noted now input).untimed = (s.noted later input).untimed := by
  have hnotes := untimed_noteRows now later s.nextEntity s.nextObservation input.notes
  have hlength := congrArg List.length hnotes
  rw [List.length_map, List.length_map] at hlength
  simp only [noted, untimed, List.map_append, hnotes, hlength]
  rfl

/-- What the clock says makes no difference but for the timestamps. -/
theorem untimed_created (now later : Timestamp) (input : EntityDraft) (s : Store) :
    (s.created now input).untimed = (s.created later input).untimed := by
  rw [created, created, untimed_refreshCount, untimed_refreshCount, untimed_noted now later]

/-- The observations of a draft are checked like the notes of its node. -/
theorem forM_notes (input : EntityDraft) :
    input.notes.forM (fun draft => Field.observation.validate draft.content) =
      input.observations.forM Field.observation.validate := by
  unfold EntityDraft.notes
  induction input.observations with
  | nil => rfl
  | cons content rest ih => rw [List.map_cons, List.forM, List.forM, ih]

theorem appendObservations_notes (now : Timestamp) (input : EntityDraft) (s : Store) :
    appendObservations now s.nextEntity input.notes
        { s with
          entities := s.entities ++ [(input.toNode none).newEntity now s.nextEntity]
          nextEntity := s.nextEntity + 1 } =
      input.observations.forM Field.observation.validate >>= fun _ =>
        .ok (noteRows now s.nextEntity s.nextObservation input.notes, s.noted now input) := by
  rw [appendObservations_eq, forM_notes]
  rfl

/-- Creating an entity under a free name, as the checks of its draft and one store behind them. -/
theorem addEntity_eq (now : Timestamp) (hfree : s.entityNamed? (trim input.name) = none) :
    s.addEntity now input = input.check >>= fun _ => do
      return (← (s.created now input).existing s.nextEntity, s.created now input) := by
  -- What both sides do with the notes once the row of the entity has passed its checks.
  have hlast := congrArg (fun result => result >>= fun noted => do
    let after := noted.2.refreshCount now s.nextEntity
    return (← after.existing s.nextEntity, after)) (appendObservations_notes now input s)
  simp only [addEntity, hfree, appendEntity, EntityDraft.check]
  cases Field.entityName.validate input.name with
  | error cause => rfl
  | ok _ =>
    cases Field.entityType.validate input.entityType with
    | error cause => rfl
    | ok _ =>
      cases hobservations : input.observations.forM Field.observation.validate with
      | error cause => rfl
      | ok _ =>
        rw [hobservations] at hlast
        exact hlast

theorem exists_addEntity_eq (now : Timestamp)
    (hfree : s.entityNamed? (trim input.name) = none) :
    ∃ e, s.addEntity now input = input.check >>= fun _ => .ok (e, s.created now input) := by
  have hthere : (s.created now input).HasEntity s.nextEntity :=
    hasEntity_modifyEntity _ _ (fun _ => rfl) ⟨_, List.mem_append_right _ List.mem_cons_self, rfl⟩
  obtain ⟨e, he⟩ := hthere.existing
  refine ⟨e, ?_⟩
  rw [addEntity_eq now hfree, he]
  rfl

/-- Creating the entity of a node, likewise. -/
theorem insertNode_toNode (now : Timestamp) (relationType : Option String) (input : EntityDraft)
    (s : Store) : s.insertNode now (input.toNode relationType) =
      input.check >>= fun _ => .ok ((input.toNode none).newEntity now s.nextEntity,
        (noteRows now s.nextEntity s.nextObservation input.notes).length, s.created now input) := by
  have hlast := congrArg (fun result => result >>= fun noted =>
    Except.ok ((input.toNode none).newEntity now s.nextEntity, noted.1.length,
      noted.2.refreshCount now s.nextEntity)) (appendObservations_notes now input s)
  simp only [insertNode, appendEntity, EntityDraft.check, EntityDraft.toNode]
  cases Field.entityName.validate input.name with
  | error cause => rfl
  | ok _ =>
    cases Field.entityType.validate input.entityType with
    | error cause => rfl
    | ok _ =>
      refine hlast.trans ?_
      cases input.observations.forM Field.observation.validate with
      | error cause => rfl
      | ok _ => rfl

theorem length_noteRows (now : Timestamp) (id next : Id) (drafts : List ObservationDraft) :
    (noteRows now id next drafts).length = drafts.length := by
  have hsaid := congrArg List.length (noteRows_said now id next drafts)
  rwa [List.length_map, List.length_map] at hsaid

/-- Applying the node of a draft without a decision. -/
theorem admitNode_toNode (now : Timestamp) (relationType : Option String)
    (hfree : s.entityNamed? (trim input.name) = none) :
    s.admitNode now (input.toNode relationType) (.create none) none =
      input.check >>= fun _ => .ok ({ fate := .created, resolved := some s.nextEntity
                                      observations := input.observations.length },
        s.created now input) := by
  have hlength : (noteRows now s.nextEntity s.nextObservation input.notes).length =
      input.observations.length := by
    rw [length_noteRows, EntityDraft.notes, List.length_map]
  have hadmitted : s.admitNode now (input.toNode relationType) (.create none) none =
      s.insertUnder now (input.toNode relationType) none := by
    simp only [admitNode, EntityDraft.toNode, hfree]
    rfl
  rw [hadmitted, insertUnder, insertNode_toNode, hlength]
  cases input.check with
  | error cause => rfl
  | ok _ => rfl

/-- An import of one node without children gives what applying this node gives. -/
theorem runImport_single {document : TreeDocument} {relationType : Option String} (mode : ImportMode)
    (hfree : s.entityNamed? (trim input.name) = none)
    (hroots : document.roots = [input.toNode relationType]) :
    s.runImport now document [] mode =
      match input.check with
      | .ok _ => ({ created := 1, observations := input.observations.length
                    touched := [s.nextEntity] }, s.created now input)
      | .error cause =>
        ({ failures := [{ name := input.name, path := { root := 0 }, cause }]
           rolledBack := mode = .atomic }, s) := by
  have hrun : ImportRun.descendRoots now [] 0 { store := s } document.roots =
      (ImportRun.visit now [] (input.toNode relationType) { root := 0 } none { store := s }).1 := by
    rw [hroots]
    rfl
  have hadmitted := admitNode_toNode now relationType hfree
  have hdecision : Decisions.decisionFor [] { root := 0 } = .create none := rfl
  rw [runImport, hrun, ImportRun.visit, hdecision, hadmitted]
  cases input.check with
  | error cause =>
    cases mode with
    | bestEffort => rfl
    | atomic => rfl
  | ok _ => simp [bind, Except.bind, ImportReport.tally, ImportReport.success]

end Store

/-- An entity under a free name is created from a draft exactly when an import of the draft as a
document of one node succeeds, and for the same cause refused; what decides is the draft alone.
Whether it succeeds or not, both leave the same graph up to its timestamps, with the same next
ids. -/
theorem created_as_imported {s : Store} {input : EntityDraft}
    (hfree : ∀ e ∈ s.entities, e.name ≠ trim input.name) (now later : Moment)
    (version exportedAt : String) (relationType : Option String) (mode : ImportMode) :
    let document : TreeDocument := { version, exportedAt, roots := [input.toNode relationType] }
    let result := s.runImport later.text document [] mode
    ((∃ e after, s.addEntity now.text input = .ok (e, after)) ↔ result.1.success = true) ∧
    (result.1.success = true ↔ input.Fit) ∧
    (∀ cause, s.addEntity now.text input = .error cause ↔
      result.1.failures.map NodeFailure.cause = [cause]) ∧
    ((Operation.addEntity input).outcome now s).untimed = result.2.untimed := by
  intro document result
  have hnone := Store.entityNamed?_eq_none.2 hfree
  have hresult : result = _ := Store.runImport_single mode hnone rfl
  obtain ⟨e, he⟩ := Store.exists_addEntity_eq now.text hnone
  rw [hresult, Operation.outcome, Operation.perform, he, ← EntityDraft.check_eq_ok]
  cases input.check with
  | error cause =>
    refine ⟨?_, ?_, ?_, rfl⟩
    · simp [bind, Except.bind, ImportReport.success]
    · simp [ImportReport.success]
    · simp [bind, Except.bind]
  | ok _ =>
    refine ⟨?_, ?_, ?_, Store.untimed_created now.text later.text input s⟩
    · simp [bind, Except.bind, ImportReport.success]
    · simp [ImportReport.success]
    · simp [bind, Except.bind]

/-- A draft with blanks around its name, notes that say the same twice and aliases of blanks is
created either way; one whose last note is blank is refused either way. -/
theorem created_as_imported_of_repeats :
    let now : Moment := .ofNanoseconds 0
    let later : Moment := .ofNanoseconds 1
    let s := Store.run .empty [
      (now, .addEntity { name := "rust", entityType := "Language", observations := ["old"] })]
    let input : EntityDraft :=
      { name := " lean ", entityType := "Language", aliases := some " ", observations := ["a", "a"] }
    let spoiled : EntityDraft := { input with observations := ["a", " "] }
    let imported (input : EntityDraft) :=
      s.runImport later.text { roots := [input.toNode (some "uses")] } [] .bestEffort
    (∃ e after, s.addEntity now.text input = .ok (e, after)) ∧
      (imported input).1.success = true ∧
      ((Operation.addEntity input).outcome now s).untimed = (imported input).2.untimed ∧
      (imported spoiled).1.failures.map NodeFailure.cause =
        [.invalidField .observation .blank] ∧
      ((Operation.addEntity spoiled).outcome now s).untimed = (imported spoiled).2.untimed := by
  intro now later s input spoiled imported
  have hfree : ∀ e ∈ s.entities, e.name ≠ trim input.name := by decide +kernel
  obtain ⟨hsucceeds, hfit, _, hsame⟩ :=
    created_as_imported hfree now later "" "" (some "uses") .bestEffort
  have hfree' : ∀ e ∈ s.entities, e.name ≠ trim spoiled.name := hfree
  obtain ⟨_, _, hcause, hspoiled⟩ :=
    created_as_imported hfree' now later "" "" (some "uses") .bestEffort
  have hok : (imported input).1.success = true := hfit.2 (by constructor <;> decide +kernel)
  have hrefused : s.addEntity now.text spoiled = .error (.invalidField .observation .blank) := by
    decide +kernel
  exact ⟨hsucceeds.2 hok, hok, hsame, (hcause _).1 hrefused, hspoiled⟩

end MemoryGraph
