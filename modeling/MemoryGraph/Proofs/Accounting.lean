-- SUMMARY: The report of an import against its visits, its document and the tables.
import MemoryGraph.Proofs.Visit

/-!
# What an import reports

The counters of a report that was not rolled back are exactly what the tables
gained, and every node is counted once: as created, merged, skipped or failed.
-/
namespace MemoryGraph

open Text

/-! ## Entities that are touched -/

namespace Visit

variable {now : Timestamp} {decisions : Decisions} {s : Store}
  {visits : List (Visit now decisions)}

theorem hasEntity_after (v : Visit now decisions) {id : Id} (h : v.before.HasEntity id) :
    v.after.HasEntity id := by
  rcases v.cases with ⟨_, hafter, _⟩ | ⟨_, _, _, _, hadmitted⟩
  · rwa [hafter]
  · exact hadmitted.hasEntity h

theorem hasEntity_touched {v : Visit now decisions} {id : Id} (h : v.touched? = some id) :
    v.after.HasEntity id := by
  unfold touched? fate? resolved at h
  rcases v.cases with ⟨heffect, _⟩ | ⟨_, effect, _, heffect, hadmitted⟩
  · simp [heffect] at h
  · rcases hadmitted.adds with ⟨hskipped, _⟩ | ⟨hkept, _, other, _, hthere, hadds⟩
    · simp [heffect, hskipped] at h
    · have hother : other = id := by simpa [heffect, hkept, hadds.resolved] using h
      exact hother ▸ hthere

theorem Chained.hasEntity (h : Chained s visits) {id : Id} (hid : s.HasEntity id) :
    (storeAfter s visits).HasEntity id :=
  h.relates (R := fun a b => a.HasEntity id → b.HasEntity id) (fun _ hs => hs)
    (fun hab hbc ha => hbc (hab ha)) (fun v _ => v.hasEntity_after) hid

/-- What a visit touched is there after all visits. -/
theorem Chained.hasEntity_touched (h : Chained s visits) :
    ∀ id ∈ visits.filterMap touched?, (storeAfter s visits).HasEntity id := by
  intro id hid
  obtain ⟨v, hv, htouched⟩ := List.mem_filterMap.1 hid
  obtain ⟨earlier, later, rfl⟩ := List.append_of_mem hv
  obtain ⟨_, _, hlater⟩ := chained_append.1 h
  rw [storeAfter_append]
  exact hlater.hasEntity (Visit.hasEntity_touched htouched)

/-! ## Rows that are added -/

theorem length_entities (v : Visit now decisions) :
    v.after.entities.length =
      v.before.entities.length + if v.fate? = some .created then 1 else 0 := by
  unfold fate?
  rcases v.cases with ⟨heffect, hafter, _⟩ | ⟨_, effect, _, heffect, hadmitted⟩
  · simp [heffect, hafter]
  · have hids := congrArg List.length hadmitted.ids
    rw [List.length_map, List.length_append, List.length_map] at hids
    rw [hids, heffect]
    cases hfate : effect.fate <;> simp [hfate]

theorem length_observations (v : Visit now decisions) :
    v.after.observations.length =
      v.before.observations.length + (v.effect?.map NodeEffect.observations).getD 0 := by
  rcases v.cases with ⟨heffect, hafter, _⟩ | ⟨_, effect, _, heffect, hadmitted⟩
  · simp [heffect, hafter]
  · rcases hadmitted.adds with ⟨_, hafter, hnone, _⟩ | ⟨_, _, _, _, _, hadds⟩
    · simp [heffect, hafter, hnone]
    · obtain ⟨rows, hafter, hlength, _⟩ := hadds.observations
      simp [heffect, hafter, hlength]

theorem length_relations (v : Visit now decisions) :
    v.after.relations.length =
      v.before.relations.length + (v.effect?.map NodeEffect.relations).getD 0 := by
  rcases v.cases with ⟨heffect, hafter, _⟩ | ⟨_, effect, _, heffect, hadmitted⟩
  · simp [heffect, hafter]
  · rcases hadmitted.adds with ⟨_, hafter, _, hnone, _⟩ | ⟨_, _, _, _, _, hadds⟩
    · simp [heffect, hafter, hnone]
    · obtain ⟨links, hafter, hlength, _⟩ := hadds.relations
      simp [heffect, hafter, hlength]

end Visit

/-! ## Counting visits -/

namespace ImportReport

variable {now : Timestamp} {decisions : Decisions}

/-- How many nodes had a fate. -/
def count (report : ImportReport) : NodeFate → Nat
  | .created => report.created
  | .merged => report.merged
  | .skipped => report.skipped

/-- How many nodes a report tells of. -/
def total (report : ImportReport) : Nat :=
  report.created + report.merged + report.skipped + report.failures.length

/-- The entities touched so far with those of one visit more. -/
def touch (touched : List Id) : Option Id → List Id
  | some id => if touched.contains id then touched else touched ++ [id]
  | none => touched

/-- What a visit adds to each part of a report. -/
theorem record_eq (report : ImportReport) (v : Visit now decisions) :
    report.record v =
      { created := report.created + if v.fate? = some .created then 1 else 0
        merged := report.merged + if v.fate? = some .merged then 1 else 0
        skipped := report.skipped + if v.fate? = some .skipped then 1 else 0
        observations := report.observations + (v.effect?.map NodeEffect.observations).getD 0
        relations := report.relations + (v.effect?.map NodeEffect.relations).getD 0
        failures := report.failures ++ v.failure?.toList
        rolledBack := report.rolledBack
        touched := touch report.touched v.touched? } := by
  unfold record Visit.touched? Visit.resolved Visit.fate?
  rcases v.cases with ⟨heffect, _, cause, houtcome, hfailure⟩ |
    ⟨hfailure, effect, houtcome, heffect, _⟩
  · simp [houtcome, heffect, hfailure, touch]
  · obtain ⟨fate, resolved, observations, relations⟩ := effect
    rw [houtcome, heffect, hfailure]
    cases fate <;> cases resolved <;> simp [tally, touch]

theorem count_record (report : ImportReport) (v : Visit now decisions) (fate : NodeFate) :
    (report.record v).count fate = report.count fate + if v.fate? = some fate then 1 else 0 := by
  rw [record_eq]
  cases fate <;> rfl

/-- Every visit counts once. -/
theorem total_record (report : ImportReport) (v : Visit now decisions) :
    (report.record v).total = report.total + 1 := by
  rw [record_eq]
  rcases v.cases with ⟨heffect, _, cause, _, hfailure⟩ | ⟨hfailure, effect, _, heffect, _⟩
  · simp [total, Visit.fate?, heffect, hfailure, Nat.add_assoc]
  · simp only [total, Visit.fate?, heffect, hfailure]
    cases hfate : effect.fate <;> simp [hfate] <;> omega

/-! ## Counting all visits -/

variable (report : ImportReport) (visits : List (Visit now decisions))

theorem count_foldl (fate : NodeFate) :
    (visits.foldl record report).count fate =
      report.count fate + visits.countP fun v => v.fate? = some fate := by
  induction visits generalizing report with
  | nil => rfl
  | cons v rest ih =>
    rw [List.foldl_cons, ih, count_record, List.countP_cons]
    simp only [decide_eq_true_eq]
    omega

theorem total_foldl : (visits.foldl record report).total = report.total + visits.length := by
  induction visits generalizing report with
  | nil => rfl
  | cons v rest ih =>
    rw [List.foldl_cons, ih, total_record, List.length_cons]
    omega

theorem failures_foldl :
    (visits.foldl record report).failures =
      report.failures ++ visits.filterMap Visit.failure? := by
  induction visits generalizing report with
  | nil => simp
  | cons v rest ih =>
    have hrecord : (report.record v).failures = report.failures ++ v.failure?.toList := by
      rw [record_eq]
    rw [List.foldl_cons, ih, hrecord, List.append_assoc, List.filterMap_cons]
    cases v.failure? <;> rfl

/-- The entities touched are listed once each, in the order of their first visits. -/
theorem touched_foldl (ids : List Id) (h : report.touched = distinct ids) :
    (visits.foldl record report).touched = distinct (ids ++ visits.filterMap Visit.touched?) := by
  induction visits generalizing report ids with
  | nil => simpa using h
  | cons v rest ih =>
    have hrecord : (report.record v).touched = distinct (ids ++ v.touched?.toList) := by
      rw [record_eq]
      cases v.touched? with
      | none => simpa [touch] using h
      | some id => rw [Option.toList_some, distinct_concat, ← h, touch]
    rw [List.foldl_cons, ih _ _ hrecord, List.append_assoc, List.filterMap_cons]
    cases v.touched? <;> rfl

/-! ## The tables -/

/-- A report counts the rows that the tables gained. -/
structure Gained (s : Store) (report : ImportReport) (after : Store) : Prop where
  entities : after.entities.length = s.entities.length + report.created
  observations : after.observations.length = s.observations.length + report.observations
  relations : after.relations.length = s.relations.length + report.relations

variable {report visits} {s : Store}

theorem Gained.record {v : Visit now decisions} (h : Gained s report v.before) :
    Gained s (report.record v) v.after := by
  rw [record_eq]
  constructor
  · rw [v.length_entities, h.entities, Nat.add_assoc]
  · rw [v.length_observations, h.observations, Nat.add_assoc]
  · rw [v.length_relations, h.relations, Nat.add_assoc]

theorem Gained.foldl {mid : Store} (h : Gained s report mid) (hchained : Visit.Chained mid visits) :
    Gained s (visits.foldl ImportReport.record report) (Visit.storeAfter mid visits) := by
  induction visits generalizing report mid with
  | nil => exact h
  | cons v rest ih =>
    obtain ⟨rfl, hrest⟩ := hchained
    exact ih h.record hrest

end ImportReport

/-! ## Successes and failures -/

theorem failures_visitsReport (s : Store) (now : Timestamp) (decisions : Decisions)
    (document : TreeDocument) :
    (s.visitsReport now decisions document).failures =
      (s.visits now decisions document).filterMap Visit.failure? := by
  rw [Store.visitsReport, ImportReport.failures_foldl]
  rfl

/-- An import without a failure gives in either mode what its visits tell. -/
theorem runImport_of_success {s : Store} {now : Timestamp} {decisions : Decisions}
    {document : TreeDocument} {mode : ImportMode}
    (h : (s.runImport now document decisions mode).1.success = true) :
    (∀ v ∈ s.visits now decisions document, v.failure? = none) ∧
      s.runImport now document decisions mode =
        (s.visitsReport now decisions document,
          Visit.storeAfter s (s.visits now decisions document)) := by
  have hfailures := failures_visitsReport s now decisions document
  rw [Store.runImport_eq] at h ⊢
  split at h
  · rename_i hfailed
    exact absurd (List.isEmpty_iff.1 h) hfailed.2
  · rename_i hkept
    rw [if_neg hkept]
    rw [List.isEmpty_iff.1 h, eq_comm, List.filterMap_eq_nil_iff] at hfailures
    exact ⟨hfailures, rfl⟩

/-- An import whose visits all succeed succeeds. -/
theorem success_of_visits {s : Store} {now : Timestamp} {decisions : Decisions}
    {document : TreeDocument} (mode : ImportMode)
    (h : ∀ v ∈ s.visits now decisions document, v.failure? = none) :
    (s.runImport now document decisions mode).1.success = true := by
  have hnone : (s.visitsReport now decisions document).failures = [] := by
    rw [failures_visitsReport, List.filterMap_eq_nil_iff]
    exact h
  rw [Store.runImport_eq, if_neg (fun hfailed => hfailed.2 hnone)]
  exact List.isEmpty_iff.2 hnone

theorem touched_visitsReport (s : Store) (now : Timestamp) (decisions : Decisions)
    (document : TreeDocument) :
    (s.visitsReport now decisions document).touched =
      distinct ((s.visits now decisions document).filterMap Visit.touched?) :=
  ImportReport.touched_foldl {} _ [] rfl

/-! ## What a report says -/

/-- A report against the document, the visits and the tables. -/
structure Accounted {now : Timestamp} {decisions : Decisions} (s : Store)
    (document : TreeDocument) (visits : List (Visit now decisions)) (report : ImportReport)
    (after : Store) : Prop where
  /-- Every node is visited once, in the order of the document. -/
  places : visits.map Visit.place = document.places
  /-- The counters of rows are what the tables gained. -/
  gained : report.Gained s after
  /-- The counters of nodes are those of the visits. -/
  fates : ∀ fate, report.count fate = visits.countP fun v => v.fate? = some fate
  /-- Every node is created, merged, skipped or a failure. -/
  nodes : report.created + report.merged + report.skipped + report.failures.length = document.size
  success : report.success = true ↔ report.failures = []
  /-- The entities of the nodes created or merged are listed, each at its first node. -/
  touched : report.touched = distinct (visits.filterMap Visit.touched?)
  once : report.touched.Nodup
  there : ∀ id ∈ report.touched, after.HasEntity id

/-- A report that was not rolled back accounts for every node and for every row. -/
theorem accounted_of_kept {s : Store} {now : Timestamp} {decisions : Decisions}
    {document : TreeDocument} {mode : ImportMode}
    (h : (s.runImport now document decisions mode).1.rolledBack = false) :
    Accounted s document (s.visits now decisions document)
      (s.runImport now document decisions mode).1 (s.runImport now document decisions mode).2 := by
  rw [Store.runImport_eq] at h ⊢
  split at h
  · cases h
  · rename_i hkept
    rw [if_neg hkept]
    have htouched := touched_visitsReport s now decisions document
    have hempty : ImportReport.Gained s {} s := ⟨rfl, rfl, rfl⟩
    constructor
    case places => exact Store.places_visits
    case gained => exact hempty.foldl Store.chained_visits
    case fates =>
      intro fate
      refine (ImportReport.count_foldl {} _ fate).trans ?_
      cases fate <;> exact Nat.zero_add _
    case nodes =>
      have htotal := ImportReport.total_foldl {} (s.visits now decisions document)
      rw [Store.length_visits] at htotal
      exact htotal.trans (Nat.zero_add _)
    case success => simp [ImportReport.success]
    case touched => exact htouched
    case once =>
      rw [htouched]
      exact distinct_nodup _
    case there =>
      intro id hid
      rw [htouched, mem_distinct] at hid
      exact Store.chained_visits.hasEntity_touched id hid

/-- A node merged by its name, with an observation known and one told twice, and below it one that
is created, one that fails at its last observation and one that is skipped. -/
theorem accounted_of_siblings :
    let now : Moment := .ofNanoseconds 0
    let s := Store.run .empty [
      (now, .addEntity { name := "top", entityType := "Project" }),
      (now, .addEntity { name := "note", entityType := "Note", observations := ["seen"] })]
    let document : TreeDocument := { roots := [
      { name := "note", entityType := "Note"
        observations := [{ content := "seen" }, { content := "new" }, { content := "new" }]
        children := [
          { name := "fresh", entityType := "Note", observations := [{ content := "first" }] },
          { name := "broken", entityType := "Note"
            observations := [{ content := "kept" }, { content := " " }] },
          { name := "left out", entityType := "Note" }] }] }
    let decisions : Decisions :=
      [("0", .create (some 1)), ("0.children.2", .skip none none)]
    let result := s.runImport now.text document decisions .bestEffort
    result.1.rolledBack = false ∧
      Accounted s document (s.visits now.text decisions document) result.1 result.2 ∧
      (result.1.created, result.1.merged, result.1.skipped, result.1.failures.length) =
        (1, 1, 1, 1) ∧
      (result.1.observations, result.1.relations, result.1.touched) = (2, 2, [2, 3]) := by
  intro now s document decisions result
  have hkept : result.1.rolledBack = false := by decide +kernel
  exact ⟨hkept, accounted_of_kept hkept, by decide +kernel⟩

end MemoryGraph
