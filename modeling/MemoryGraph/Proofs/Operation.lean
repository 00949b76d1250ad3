-- SUMMARY: The operations on the graph as data, and the stores that they reach from the empty one.
import MemoryGraph.Embedding.Embedder
import MemoryGraph.Import.Run
import MemoryGraph.Proofs.Trimming
import MemoryGraph.Record.Moment
import MemoryGraph.Reshape.Merge
import MemoryGraph.Reshape.Prune
import MemoryGraph.Reshape.Reparent
import MemoryGraph.Store.Edit

/-!
# Operations and runs

Every operation that changes the graph is a value, so that a run is a list of
them, each with the moment at which it was asked for. An operation that is
refused leaves the store as it was. The reachable stores are those that a run
makes out of the empty one; they are what the rest of the theory speaks of.
-/
namespace MemoryGraph

open Text

/-- A reading of the clock: a text that is not blank. -/
structure Moment where
  text : Timestamp
  not_blank : allBlank text = false

theorem allBlank_ofNanoseconds (nanoseconds : Nat) :
    allBlank (Timestamp.ofNanoseconds nanoseconds) = false := by
  have hmem : 'Z' ∈ (Timestamp.ofNanoseconds nanoseconds).toList := by
    unfold Timestamp.ofNanoseconds
    simp only [String.toList_append, List.mem_append]
    exact .inr (.inr (by decide))
  have hletter : isBlank 'Z' = false := by decide
  exact allBlank_eq_false hmem hletter

/-- The clock reads a number of nanoseconds behind the start of 1970. -/
def Moment.ofNanoseconds (nanoseconds : Nat) : Moment where
  text := Timestamp.ofNanoseconds nanoseconds
  not_blank := allBlank_ofNanoseconds nanoseconds

/-- What can be asked of the graph. -/
inductive Operation where
  | addEntity (input : EntityDraft)
  | changeEntity (id : Id) (update : EntityChange)
  | observe (id : Id) (contents : List String)
  | dropObservation (id : Id)
  | relate (source target : Id) (relationType : String)
  | dropRelation (id : Id)
  | setEmbedding (id : Id) (v : Embedding)
  | runImport (document : TreeDocument) (decisions : Decisions) (mode : ImportMode)
  | reparent (node parent : Id)
  | mergeEntities (source target : Id)
  | prune (node : Id) (cascade : Bool)

namespace Operation

/-- The store after an operation, or the cause of its refusal. -/
def perform (now : Timestamp) (s : Store) : Operation → Except Refusal Store
  | .addEntity input => do return (← s.addEntity now input).2
  | .changeEntity id update => do return (← s.changeEntity now id update).2
  | .observe id contents => do return (← s.observe now id contents).2
  | .dropObservation id => s.dropObservation now id
  | .relate source target relationType => do return (← s.relate now source target relationType).2
  | .dropRelation id => s.dropRelation id
  | .setEmbedding id v => s.setEmbedding id v
  | .runImport document decisions mode => .ok (s.runImport now document decisions mode).2
  | .reparent node parent => do return (← s.reparent now node parent).2
  | .mergeEntities source target => do return (← s.mergeEntities now source target).2
  | .prune node cascade => do return (← s.prune node cascade).2

/-- The store that an operation leaves, whether it succeeds or not. -/
def outcome (now : Moment) (s : Store) (operation : Operation) : Store :=
  match operation.perform now.text s with
  | .ok after => after
  | .error _ => s

end Operation

/-- The stores that operations reach from the empty one. -/
inductive Reachable : Store → Prop where
  | empty : Reachable .empty
  | step {s : Store} (now : Moment) (operation : Operation) :
      Reachable s → Reachable (operation.outcome now s)

/-- The store after operations at their moments, one after the other. -/
def Store.run (s : Store) : List (Moment × Operation) → Store
  | [] => s
  | (now, operation) :: rest => Store.run (operation.outcome now s) rest

theorem Reachable.run {s : Store} (h : Reachable s) (steps : List (Moment × Operation)) :
    Reachable (s.run steps) := by
  induction steps generalizing s with
  | nil => exact h
  | cons step rest ih => exact ih (h.step step.1 step.2)

/-- A store is reachable exactly when a run makes it out of the empty one. -/
theorem reachable_iff {s : Store} :
    Reachable s ↔ ∃ steps : List (Moment × Operation), Store.run .empty steps = s := by
  constructor
  · intro h
    have hsnoc : ∀ (steps : List (Moment × Operation)) (s : Store) (last : Moment × Operation),
        s.run (steps ++ [last]) = last.2.outcome last.1 (s.run steps) := by
      intro steps
      induction steps with
      | nil => intro s last; rfl
      | cons step rest ih => intro s last; exact ih _ last
    induction h with
    | empty => exact ⟨[], rfl⟩
    | step now operation _ ih =>
      obtain ⟨steps, rfl⟩ := ih
      exact ⟨steps ++ [(now, operation)], hsnoc steps _ _⟩
  · rintro ⟨steps, rfl⟩
    exact Reachable.empty.run steps

end MemoryGraph
