-- SUMMARY: What is to be done with the nodes of an import, and reading it from JSON.
import MemoryGraph.Json.Basic
import MemoryGraph.Record.Refusal
import MemoryGraph.Tree.Path

/-!
# Import decisions

A decision says what becomes of one node: it is created, merged into an entity,
skipped, or linked to an entity. Each may name another parent than the one in
the tree. Decisions are kept under the paths of their nodes; a node without one
is created.
-/
namespace MemoryGraph

/-- What becomes of a node. -/
inductive Decision where
  | create (parent : Option Id)
  | merge (target : Id) (parent : Option Id)
  | skip (target : Option Id) (parent : Option Id)
  | addRelation (target : Id) (parent : Option Id)
  deriving DecidableEq, Repr

instance : Inhabited Decision := ⟨.create none⟩

namespace Decision

/-- The parent that a decision puts in the place of the one in the tree. -/
def parent? : Decision → Option Id
  | .create parent | .merge _ parent | .skip _ parent | .addRelation _ parent => parent

/-- The decision of an action with its ids as they were given. -/
def ofFields? (action : String) (target parent : Option Json) : Option Decision := do
  let id? := Json.integer? .signed64
  let parent ← Json.optional? id? parent
  if action = "create" then return .create parent
  else if action = "merge" then return .merge (← id? (← target)) parent
  else if action = "skip" then return .skip (← Json.optional? id? target) parent
  else if action = "add_relation" then return .addRelation (← id? (← target)) parent
  else none

/-- The decision that a value stands for: an object, or an array of the action and its ids. -/
def ofJson? : Json → Option Decision
  | .object fields => do
    let action ← (← Json.lastField? "action" fields).string?
    ofFields? action (Json.lastField? "target_id" fields) (Json.lastField? "parent_id" fields)
  | .array (action :: ids) => do
    let action ← action.string?
    if action = "create" then
      if ids.length ≤ 1 then ofFields? action none ids[0]? else none
    else if ids.length ≤ 2 then ofFields? action ids[0]? ids[1]? else none
  | _ => none

def toJson : Decision → Json
  | .create parent =>
    .object [("action", .string "create"), ("parent_id", Json.orNull .int parent)]
  | .merge target parent =>
    .object [("action", .string "merge"), ("target_id", .int target),
      ("parent_id", Json.orNull .int parent)]
  | .skip target parent =>
    .object [("action", .string "skip"), ("target_id", Json.orNull .int target),
      ("parent_id", Json.orNull .int parent)]
  | .addRelation target parent =>
    .object [("action", .string "add_relation"), ("target_id", .int target),
      ("parent_id", Json.orNull .int parent)]

end Decision

/-- Decisions under the paths of their nodes. -/
abbrev Decisions := List (String × Decision)

namespace Decisions

/-- The decision for a node. -/
def decisionFor (decisions : Decisions) (path : NodePath) : Decision :=
  (decisions.lookup path.render).getD default

/-- The decisions that a value stands for; `null` stands for none. -/
def ofJson : Json → Except Refusal Decisions
  | .null => .ok []
  | .object fields =>
    match (Json.lastFields fields).mapM fun (path, j) => (Decision.ofJson? j).map (path, ·) with
    | some decisions => .ok decisions
    | none => .error .invalidDecisions
  | _ => .error .invalidDecisions

end Decisions
end MemoryGraph
