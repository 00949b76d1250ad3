-- SUMMARY: Computations that write statement by statement, and how they compare with writes to a store as a whole.
import MemoryGraph.Proofs.Integrity

/-!
# Statements

An operation gives the store after it, or its refusal and no store. On a database
it is a sequence of statements instead, each of which changes the store at once,
and what a statement has written stays when a later one is refused. A computation
performs an operation when it leaves the store of the operation where there is
one, and is refused where the operation is; what it leaves then is not said.
-/
namespace MemoryGraph

open Text

/-- A computation that changes the store as it goes; what it wrote stays, also when it is refused
later. -/
abbrev InPlace (α : Type) := ExceptT Refusal (StateM Store) α

namespace InPlace

open Store

variable {α β : Type} {s after : Store}

/-! ## Statements -/

/-- What a computation gives, and the store that it leaves. -/
def runOn (p : InPlace α) (s : Store) : Except Refusal α × Store := (p.run.run s).run

/-- What is left when an operation is carried out as a whole or not at all. -/
def settle (s : Store) : Except Refusal (α × Store) → Except Refusal α × Store
  | .ok (a, after) => (.ok a, after)
  | .error cause => (.error cause, s)

/-- A store that comes without a result. -/
def noResult (x : Except Refusal Store) : Except Refusal (Unit × Store) :=
  x.map fun after => ((), after)

/-- Read the store, or be refused for what is there. -/
def require (question : Store → Except Refusal α) : InPlace α := fun s => (question s, s)

/-- Read the store. -/
def ask (question : Store → α) : InPlace α := require fun s => .ok (question s)

/-- Be refused when something holds of the store. -/
def refuseWhen (p : Store → Bool) (cause : Refusal) : InPlace Unit :=
  require fun s => if p s then .error cause else .ok ()

/-- A write of one statement: it is carried out as a whole, or refused and not begun. -/
def statement (change : Store → Except Refusal (α × Store)) : InPlace α :=
  fun s => settle s (change s)

/-- A write that nothing stands in the way of. -/
def write (change : Store → Store) : InPlace Unit := statement fun s => .ok ((), change s)

/-- Go back to the store at the beginning when the body is refused. -/
def transaction (body : InPlace α) : InPlace α := fun s =>
  match body.runOn s with
  | (.ok a, after) => (.ok a, after)
  | (.error cause, _) => (.error cause, s)

/-! ## Rows -/

/-- Add the row of an entity and read it back. -/
def insertEntity (now : Timestamp) (input : EntityDraft) : InPlace Entity := do
  let row ← statement (appendEntity now input)
  require fun s => s.existing row.id

def insertObservations (now : Timestamp) (id : Id) :
    List ObservationDraft → InPlace (List Observation)
  | [] => pure []
  | draft :: rest => do
    let row ← statement (appendObservation now id draft)
    let rows ← insertObservations now id rest
    return row :: rows

/-- Add the observations whose contents are not among the `known` ones, which grow on the way. -/
def insertNew (now : Timestamp) (id : Id) (known : List String) :
    List ObservationDraft → InPlace (List Observation)
  | [] => pure []
  | draft :: rest =>
    if known.contains draft.content then insertNew now id known rest
    else do
      let row ← statement (appendObservation now id draft)
      let rows ← insertNew now id (draft.content :: known) rest
      return row :: rows

/-- Add contents that are not among the `known` ones as observations of this moment. -/
def insertUnseen (now : Timestamp) (id : Id) (known contents : List String) :
    InPlace (List Observation) :=
  insertNew now id known (contents.map fun content => { content })

/-- Add the row of a relation and read it back, or nothing when it is there already. -/
def insertRelation (now : Timestamp) (source target : Id) (relationType : String) :
    InPlace (Option Relation) := do
  match ← statement (appendRelation now source target relationType) with
  | none => return none
  | some row => return some (← require fun s => s.existingRelation row.id)

/-- Delete the row of a relation; the result is how many rows went. -/
def deleteRelationRow (id : Id) : InPlace Nat :=
  statement fun s => .ok (s.relations.countP (fun r => r.id = id), s.removeRelation id)

/-- Delete the row of an entity, and with it what belongs to it; the result is how many rows of
entities went. -/
def deleteEntityRow (id : Id) : InPlace Nat :=
  statement fun s => .ok (s.entities.countP (fun e => e.id = id), s.removeEntity id)

/-- Change the row of an entity; the result is how many rows changed. -/
def updateEntityRow (id : Id) (change : Entity → Entity) : InPlace Nat :=
  statement fun s => .ok (s.entities.countP (fun e => e.id = id), s.modifyEntity id change)

/-- Be refused when a write has hit no row, which shows only when it was carried out. -/
def mustHit (rows : InPlace Nat) (cause : Refusal) : InPlace Unit := do
  let count ← rows
  if count = 0 then throw cause

/-! ## Computations against operations on stores -/

/-- Where an operation gives a store, a computation leaves it; where the operation is refused, so is
the computation, but it may leave any store. -/
def Performs (p : InPlace α) (s : Store) : Except Refusal (α × Store) → Prop
  | .ok (a, after) => p.runOn s = (.ok a, after)
  | .error cause => (p.runOn s).1 = .error cause

section Performs

variable {p : InPlace α} {k : α → InPlace β} {x : Except Refusal (α × Store)} {cause : Refusal}

theorem runOn_bind (p : InPlace α) (k : α → InPlace β) (s : Store) :
    (p >>= k).runOn s =
      match p.runOn s with
      | (.ok a, after) => (k a).runOn after
      | (.error cause, after) => (.error cause, after) := by
  simp only [runOn, ExceptT.run_bind, StateT.run_bind, Id.run_bind]
  rcases (StateT.run p.run s).run with ⟨_ | _, _⟩ <;> rfl

theorem runOn_statement (change : Store → Except Refusal (α × Store)) (s : Store) :
    (statement change).runOn s = settle s (change s) := rfl

theorem runOn_require (question : Store → Except Refusal α) (s : Store) :
    (require question).runOn s = (question s, s) := rfl

theorem Performs.exists_left (h : Performs p s (.error cause)) :
    ∃ left, p.runOn s = (.error cause, left) :=
  ⟨(p.runOn s).2, Prod.ext h rfl⟩

/-- What is refused in place is refused. -/
theorem Performs.eq_error (h : Performs p s x) {left : Store}
    (hrun : p.runOn s = (.error cause, left)) : x = .error cause := by
  cases x with
  | error other =>
    have hother : (p.runOn s).1 = .error other := h
    rw [hrun] at hother
    cases hother
    rfl
  | ok result =>
    have hok : p.runOn s = (.ok result.1, result.2) := h
    rw [hrun] at hok
    cases hok

theorem Performs.bind {f : α × Store → Except Refusal (β × Store)} (h : Performs p s x)
    (hk : ∀ a after, x = .ok (a, after) → Performs (k a) after (f (a, after))) :
    Performs (p >>= k) s (x >>= f) := by
  cases x with
  | error cause =>
    obtain ⟨left, hp⟩ := h.exists_left
    show ((p >>= k).runOn s).1 = .error cause
    rw [runOn_bind, hp]
  | ok result =>
    obtain ⟨a, after⟩ := result
    have hp : p.runOn s = (.ok a, after) := h
    have hrun : (p >>= k).runOn s = (k a).runOn after := by rw [runOn_bind, hp]
    have hnext : Performs (k a) after (f (a, after)) := hk a after rfl
    show Performs (p >>= k) s (f (a, after))
    unfold Performs at hnext ⊢
    rwa [hrun]

theorem Performs.andThen {p : InPlace Unit} {k : Unit → InPlace β} {y : Except Refusal Store}
    {f : Store → Except Refusal (β × Store)} (h : Performs p s (noResult y))
    (hk : ∀ after, y = .ok after → Performs (k ()) after (f after)) :
    Performs (p >>= k) s (y >>= f) := by
  have hbind : Performs (p >>= k) s (noResult y >>= fun r => f r.2) := h.bind fun _ after hok => by
    cases y with
    | error cause => cases hok
    | ok mid =>
      cases hok
      exact hk after rfl
  cases y <;> exact hbind

theorem performs_pure (a : α) : Performs (pure a) s (.ok (a, s)) := rfl

theorem performs_throw : Performs (throw cause : InPlace α) s (.error cause) := rfl

/-! What is written. -/

theorem performs_statement (change : Store → Except Refusal (α × Store)) :
    Performs (statement change) s (change s) := by
  unfold Performs
  rw [runOn_statement]
  cases change s <;> rfl

theorem Performs.of_statement {w : Store → Except Refusal (α × Store)}
    {f : α × Store → Except Refusal (β × Store)}
    (hk : ∀ a after, w s = .ok (a, after) → Performs (k a) after (f (a, after))) :
    Performs (statement w >>= k) s (w s >>= f) :=
  (performs_statement w).bind hk

/-- A write that nothing stands in the way of is done, whatever it counts. -/
theorem Performs.done {a : α} {w : Store → Except Refusal (α × Store)}
    {y : Except Refusal (β × Store)} (hw : w s = .ok (a, after)) (hk : Performs (k a) after y) :
    Performs (statement w >>= k) s y := by
  have hdone := Performs.of_statement (s := s) (w := w) (k := k) (f := fun _ => y) fun _ _ h => by
    rw [hw] at h
    cases h
    exact hk
  rw [hw] at hdone
  exact hdone

/-- Looking at what was just written changes nothing. -/
theorem Performs.of_readback {k : α → InPlace α} {w : Store → Except Refusal (α × Store)}
    (hk : ∀ a after, w s = .ok (a, after) → Performs (k a) after (.ok (a, after))) :
    Performs (statement w >>= k) s (w s) := by
  have hbind : Performs (statement w >>= k) s (w s >>= fun r => .ok r) := .of_statement hk
  cases h : w s <;> rw [h] at hbind <;> exact hbind

/-- A write that must hit a row writes first, and is refused when the row was not there. -/
theorem runOn_mustHit {row : Type} {rows : Store → List row} {hits : row → Bool}
    {change : Store → Store} (s : Store) :
    (mustHit (statement fun s => .ok ((rows s).countP hits, change s)) cause).runOn s =
      match (rows s).find? hits with
      | none => (.error cause, change s)
      | some _ => (.ok (), change s) := by
  have hcount : (rows s).countP hits = 0 ↔ (rows s).find? hits = none := by
    rw [List.countP_eq_zero, List.find?_eq_none]
  rw [mustHit, runOn_bind, runOn_statement]
  simp only [settle]
  cases hfind : (rows s).find? hits with
  | none =>
    rw [if_pos (hcount.2 hfind)]
    rfl
  | some _ =>
    rw [if_neg fun hzero => nomatch hfind.symm.trans (hcount.1 hzero)]
    rfl

/-! What is read decides how a computation goes on. -/

theorem performs_require (q : Store → Except Refusal α) :
    Performs (require q) s (q s >>= fun a => pure (a, s)) := by
  unfold Performs
  rw [runOn_require]
  cases q s <;> rfl

theorem performs_found {q : Store → Except Refusal α} {a : α} (h : q s = .ok a) :
    Performs (require q) s (.ok (a, s)) := by
  have hread := performs_require (s := s) q
  rw [h] at hread
  exact hread

theorem Performs.of_require {q : Store → Except Refusal α} {f : α → Except Refusal (β × Store)}
    (hk : ∀ a, q s = .ok a → Performs (k a) s (f a)) :
    Performs (require q >>= k) s (q s >>= f) := by
  have hbind := (performs_require (s := s) q).bind (k := k) (f := fun r => f r.1)
  cases hread : q s with
  | error cause =>
    rw [hread] at hbind
    exact hbind fun _ _ h => nomatch h
  | ok a =>
    rw [hread] at hbind
    refine hbind fun _ _ h => ?_
    cases h
    exact hk a hread

theorem Performs.found {q : Store → Except Refusal α} {a : α} {y : Except Refusal (β × Store)}
    (h : q s = .ok a) (hk : Performs (k a) s y) : Performs (require q >>= k) s y :=
  (performs_found h).bind (f := fun _ => y) fun _ _ heq => by
    cases heq
    exact hk

theorem Performs.of_ask {q : Store → α} {y : Except Refusal (β × Store)}
    (hk : Performs (k (q s)) s y) : Performs (ask q >>= k) s y :=
  Performs.found rfl hk

theorem Performs.of_refuseWhen {p : Store → Bool} {k : Unit → InPlace β}
    {f : Unit → Except Refusal (β × Store)} (hk : p s = false → Performs (k ()) s (f ())) :
    Performs (refuseWhen p cause >>= k) s
      (if p s = true then (throw cause : Except Refusal Unit) >>= f else f ()) := by
  have hrequire := Performs.of_require (s := s) (k := k) (f := f)
    (q := fun s => if p s then .error cause else .ok ()) fun _ hok => by
      cases hp : p s with
      | true => simp [hp] at hok
      | false => exact hk hp
  unfold refuseWhen
  cases hp : p s with
  | true =>
    simp only [hp, if_true] at hrequire ⊢
    exact hrequire
  | false =>
    simp only [hp] at hrequire ⊢
    exact hrequire

theorem Performs.of_transaction (h : Performs p s x) : (transaction p).runOn s = settle s x := by
  have hrun : (transaction p).runOn s = match p.runOn s with
      | (.ok a, after) => (.ok a, after)
      | (.error cause, _) => (.error cause, s) := rfl
  rw [hrun]
  cases x with
  | error cause =>
    obtain ⟨left, hp⟩ := h.exists_left
    rw [hp]
    rfl
  | ok result =>
    have hp : p.runOn s = (.ok result.1, result.2) := h
    rw [hp]
    rfl

end Performs

/-! ## Adding rows -/

section Rows

variable {now : Timestamp} {id : Id}

theorem insertEntity_performs {input : EntityDraft} (hs : s.Keyed)
    (hfree : s.entityNamed? (trim input.name) = none) :
    Performs (insertEntity now input) s (s.appendEntity now input) := by
  refine Performs.of_readback fun row after h => performs_found ?_
  -- The row is found under its id because no other row has this id.
  have hkeyed : after.Keyed := (appendEntity_write h hfree).keyed hs
  obtain ⟨_, _, _, rfl⟩ := appendEntity_eq_ok h
  exact existing_eq_ok.2 (hkeyed.entity?_eq_some.2 ⟨by simp, rfl⟩)

theorem insertObservations_performs (drafts : List ObservationDraft) :
    Performs (insertObservations now id drafts) s (s.appendObservations now id drafts) := by
  induction drafts generalizing s with
  | nil => exact performs_pure []
  | cons draft rest ih =>
    exact Performs.of_statement fun row mid _ => ih.bind fun rows after _ => performs_pure _

/-- Passing over what is known on the way is the same as passing over it beforehand. -/
theorem insertNew_performs (known : List String) (drafts : List ObservationDraft) :
    Performs (insertNew now id known drafts) s
      (s.appendObservations now id (unseen known drafts)) := by
  induction drafts generalizing known s with
  | nil => exact performs_pure []
  | cons draft rest ih =>
    rw [insertNew, unseen]
    by_cases hknown : known.contains draft.content = true
    · rw [if_pos hknown, if_pos hknown]
      exact ih known
    · rw [if_neg hknown, if_neg hknown]
      exact Performs.of_statement fun row mid _ =>
        (ih (draft.content :: known)).bind fun rows after _ => performs_pure _

theorem insertUnseen_performs (known contents : List String) :
    Performs (insertUnseen now id known contents) s
      (s.appendObservations now id (unseen known (contents.map fun content => { content }))) :=
  insertNew_performs known _

theorem insertRelation_performs {source target : Id} {relationType : String} (hs : s.Keyed) :
    Performs (insertRelation now source target relationType) s
      (s.appendRelation now source target relationType) := by
  refine Performs.of_readback fun added after h => ?_
  have hkeyed : after.Keyed := (appendRelation_write h).keyed hs
  obtain ⟨_, _, ⟨rfl, _, rfl⟩ | ⟨row, rfl, _, _, _, _, rfl⟩⟩ := appendRelation_cases h
  · exact performs_pure none
  · have hfind : Store.relation? _ row.id = some row :=
      hkeyed.relations.find?_eq_some.2 ⟨by simp, rfl⟩
    refine Performs.found (q := fun s => s.existingRelation row.id) (a := row) ?_ ?_
    · unfold existingRelation
      rw [hfind]
    · exact performs_pure (some row)

end Rows

end InPlace
end MemoryGraph
