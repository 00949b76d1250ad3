-- SUMMARY: What the mode of an import decides, and that a node that fails leaves no trace in either mode.
import MemoryGraph.Proofs.Accounting
import MemoryGraph.Proofs.ImportInPlace

/-!
# The modes of an import

In both modes an import makes the same visits in place and meets the same
failures. Without a failure the modes do the same; with one, an atomic import is
rolled back to the store that it began with. A node can fail after some of its
statements have written. Its visit goes back to the savepoint, so that the visits
behind it find the connection that it found.
-/
namespace MemoryGraph

open Text

/-- Visits made in place one after the other, from a report and a connection to a report and a
connection. Each finds the store that is there and gives the entity that stands for its node. -/
inductive Walked {now : Timestamp} {decisions : Decisions} :
    ImportReport × Connection → List (Visit now decisions) → ImportReport × Connection → Prop where
  | done (last : ImportReport × Connection) : Walked last [] last
  | visit {v : Visit now decisions} {rest : List (Visit now decisions)}
      {report next : ImportReport} {c c' : Connection} {last : ImportReport × Connection}
      (hfound : v.before = c.store)
      (hvisit : (Session.visit now decisions v.node v.path v.treeParent report).runOn c =
        ((next, v.resolved), c'))
      (hrest : Walked (next, c') rest last) : Walked (report, c) (v :: rest) last

/-- How the two modes of an import compare that are carried out in place on a store. Each gives its
report and the connection that it leaves. -/
structure ModesAgree {now : Timestamp} {decisions : Decisions} (s : Store)
    (document : TreeDocument) (visits : List (Visit now decisions))
    (best atomic : ImportReport × Connection) : Prop where
  failures : atomic.1.failures = best.1.failures
  /-- Without a failure the modes do the same. -/
  same : best.1.failures = [] → atomic = best
  /-- With a failure the atomic import leaves all rows and next ids, and reports only failures. -/
  undone : best.1.failures ≠ [] →
    atomic.2 = { store := s } ∧ atomic.1.success = false ∧
    atomic.1 =
      { created := 0, merged := 0, skipped := 0, observations := 0, relations := 0
        failures := best.1.failures, rolledBack := true, touched := [] }
  /-- The nodes of the document are visited in their order, each with what stands for its parent. -/
  places : visits.map Visit.place = document.places
  hangs : ∀ v ∈ visits, v.HangsIn visits
  /-- The other import is a transaction of these visits, and its failures are theirs. -/
  walked : Walked ({}, { store := s, marks := [s] }) visits
    (best.1, { store := best.2.store, marks := [s] })
  committed : best.2.marks = []
  failed : best.1.failures = visits.filterMap Visit.failure?
  /-- The statements of a node can be refused after some of them have written, so that any store is
  `left` behind the savepoint. The visit then leaves the connection that it found, and nothing
  stands for the node. Its children and all nodes behind them go on from there. -/
  forgiven : ∀ earlier v later cause left, visits = earlier ++ v :: later →
    (InPlace.applyNode now v.node v.decision v.treeParent).runOn v.before = (.error cause, left) →
    let found : Connection := { store := v.before, marks := [s] }
    let failure : NodeFailure := { name := v.node.name, path := v.path, cause }
    ∃ report : ImportReport,
      let next := { report with failures := report.failures ++ [failure] }
      Walked ({}, { store := s, marks := [s] }) earlier (report, found) ∧
      (do
        Session.savepoint
        Session.carryOut (InPlace.applyNode now v.node v.decision v.treeParent)).runOn found =
          (.error cause, { store := left, marks := [v.before, s] }) ∧
      (Session.visit now decisions v.node v.path v.treeParent report).runOn found =
        ((next, none), found) ∧
      v.resolved = none ∧
      Walked (next, found) later (best.1, { store := best.2.store, marks := [s] })

section Walked

variable {now : Moment} {decisions : Decisions} {s : Store}
  {visits earlier later : List (Visit now.text decisions)}

/-- Visits that make a chain can be made in place. -/
theorem Visit.Chained.walked (h : Chained s visits) (hs : s.Keyed) (report : ImportReport)
    (marks : List Store) :
    Walked (report, ⟨s, marks⟩) visits
      (visits.foldl ImportReport.record report, ⟨storeAfter s visits, marks⟩) := by
  induction visits generalizing s report with
  | nil => exact .done _
  | cons v rest ih =>
    obtain ⟨rfl, hrest⟩ := h
    exact .visit rfl (Session.visit_runOn v report marks hs) (ih hrest (v.keyed_after hs) _)

/-- A visit whose statements are refused fails and leaves what it found. -/
theorem Visit.refused {v : Visit now.text decisions} (hv : v.before.Keyed) {cause : Refusal}
    {left : Store}
    (h : (InPlace.applyNode now.text v.node v.decision v.treeParent).runOn v.before =
      (.error cause, left)) :
    v.after = v.before ∧ v.resolved = none ∧ ∀ report : ImportReport, report.record v =
      { report with
        failures := report.failures ++ [{ name := v.node.name, path := v.path, cause }] } := by
  have houtcome : v.outcome = .error cause := (InPlace.applyNode_performs hv).eq_error h
  unfold after resolved effect? ImportReport.record
  rw [houtcome]
  exact ⟨rfl, rfl, fun _ => rfl⟩

/-- Where a visit is refused, the visits behind it go on from the connection that it found. -/
theorem Visit.Chained.forgiven {v : Visit now.text decisions}
    (h : Chained s (earlier ++ v :: later)) (hs : s.Keyed) (marks : List Store) {cause : Refusal}
    {left : Store}
    (hrefused : (InPlace.applyNode now.text v.node v.decision v.treeParent).runOn v.before =
      (.error cause, left)) :
    let found : Connection := { store := v.before, marks }
    let failure : NodeFailure := { name := v.node.name, path := v.path, cause }
    ∃ report : ImportReport,
      let next := { report with failures := report.failures ++ [failure] }
      Walked ({}, ⟨s, marks⟩) earlier (report, found) ∧
      (do
        Session.savepoint
        Session.carryOut (InPlace.applyNode now.text v.node v.decision v.treeParent)).runOn found =
          (.error cause, ⟨left, v.before :: marks⟩) ∧
      (Session.visit now.text decisions v.node v.path v.treeParent report).runOn found =
        ((next, none), found) ∧
      v.resolved = none ∧
      Walked (next, found) later
        ((earlier ++ v :: later).foldl ImportReport.record {},
          ⟨storeAfter s (earlier ++ v :: later), marks⟩) := by
  intro found failure
  obtain ⟨hearlier, hbefore, hlater⟩ := chained_append.1 h
  have hv : v.before.Keyed := hbefore ▸ hearlier.keyed hs
  obtain ⟨hafter, hresolved, hrecord⟩ := v.refused hv hrefused
  rw [hafter] at hlater
  refine ⟨earlier.foldl ImportReport.record {}, ?_, ?_, ?_, hresolved, ?_⟩
  · have hwalked := hearlier.walked hs {} marks
    rwa [← hbefore] at hwalked
  · rw [Session.runOn_bind, Session.runOn_savepoint, Session.runOn_carryOut, hrefused]
  · rw [Session.visit_runOn v _ marks hv, hrecord, hresolved, hafter]
  · have hwalked := hlater.walked hv
      ((earlier.foldl ImportReport.record {}).record v) marks
    rw [hrecord] at hwalked
    rw [List.foldl_append, List.foldl_cons, hrecord, storeAfter_append, storeAfter, hafter]
    exact hwalked

end Walked

/-- An atomic import meets the failures of one that keeps what succeeds. With a failure it leaves
the store as it was, and without one it does the same; nodes that fail leave no trace in either.
Carried out in place, both give what the import on stores gives. -/
theorem modes_agree {s : Store} (h : Reachable s) (now : Moment) (decisions : Decisions)
    (document : TreeDocument) :
    let inPlace (mode : ImportMode) : ImportReport × Connection :=
      (Session.runImport now.text document decisions mode).runOn { store := s }
    (∀ mode, inPlace mode = ((s.runImport now.text document decisions mode).1,
      { store := (s.runImport now.text document decisions mode).2 })) ∧
    ModesAgree s document (s.visits now.text decisions document) (inPlace .bestEffort)
      (inPlace .atomic) := by
  intro inPlace
  have hs : s.Keyed := h.keyed
  have hinPlace (mode : ImportMode) : inPlace mode = _ := Session.runImport_runOn hs document mode
  have hchained : Visit.Chained s (s.visits now.text decisions document) := Store.chained_visits
  have hbest : inPlace .bestEffort = (s.visitsReport now.text decisions document,
      { store := Visit.storeAfter s (s.visits now.text decisions document) }) := by
    rw [hinPlace, Store.runImport_eq, if_neg (by simp)]
  have hatomic := hinPlace .atomic
  rw [Store.runImport_eq] at hatomic
  refine ⟨hinPlace, ?_⟩
  rw [hbest]
  constructor
  case places => exact Store.places_visits
  case hangs => exact Store.hangs_visits
  case walked => exact hchained.walked hs {} [s]
  case committed => rfl
  case failed => exact failures_visitsReport s now.text decisions document
  case forgiven =>
    intro earlier v later cause left hvisits hrefused
    have hforgiven := (hvisits ▸ hchained).forgiven hs [s] hrefused
    rwa [← hvisits] at hforgiven
  case failures => split at hatomic <;> rw [hatomic]
  case same =>
    intro hnone
    rw [hatomic, if_neg fun hfailed => hfailed.2 hnone]
  case undone =>
    intro hsome
    rw [hatomic, if_pos ⟨rfl, hsome⟩]
    exact ⟨rfl, by simpa [ImportReport.success] using hsome, rfl⟩

/-- The aliases and the first observation of a node are written before its second observation is
refused. Its visit takes both back, its child is created all the same, and an atomic import takes
that back too. -/
theorem modes_agree_on_half_written :
    let now : Moment := .ofNanoseconds 0
    let s := Store.run .empty [(now, .addEntity { name := "node", entityType := "Note" })]
    let node : TreeNode :=
      { name := "node", entityType := "Note", aliases := some "knot"
        observations := [{ content := "fact" }, { content := " " }]
        children := [{ name := "child", entityType := "Note" }] }
    let inPlace (mode : ImportMode) : ImportReport × Connection :=
      (Session.runImport now.text { roots := [node] } [] mode).runOn { store := s }
    let left := ((InPlace.applyNode now.text node (.create none) none).runOn s).2
    (left.entities ≠ s.entities ∧ left.observations ≠ s.observations) ∧
      (inPlace .bestEffort).1.failures.map (·.cause) = [.invalidField .observation .blank] ∧
      (inPlace .bestEffort).2.store.entities.map (·.name) = ["node", "child"] ∧
      (inPlace .bestEffort).2.store.entities.take 1 = s.entities ∧
      (inPlace .bestEffort).2.store.observations = [] ∧
      (inPlace .atomic).2 = { store := s } := by
  intro now s node inPlace left
  have hs : Reachable s := Reachable.empty.run _
  refine ⟨by decide +kernel, by decide +kernel, by decide +kernel, by decide +kernel,
    by decide +kernel, ?_⟩
  exact ((modes_agree hs now [] { roots := [node] }).2.undone (by decide +kernel)).1

end MemoryGraph
