-- SUMMARY: Tree documents as JSON: writing them, and reading them from values and texts.
import MemoryGraph.Json.Printer
import MemoryGraph.Json.Reader
import MemoryGraph.Record.Refusal
import MemoryGraph.Tree.Document

/-!
# Tree documents as JSON

A document is written with its fields in the order of their declaration, absent
texts left out. On reading, only names, types and the content of observations
are required; unknown keys are passed over. A node or observation may also be
given as an array of its fields in the same order, which may end early.
-/
namespace MemoryGraph

/-! ## Writing -/

def ObservationDraft.toJson (o : ObservationDraft) : Json :=
  .object (("content", .string o.content)
    :: Json.optionalField "created_at" .string o.createdAt)

mutual
def TreeNode.toJson : TreeNode → Json
  | ⟨name, entityType, aliases, description, observations, relationType, children⟩ =>
    .object (
      [("name", .string name), ("entity_type", .string entityType)]
        ++ Json.optionalField "aliases" .string aliases
        ++ Json.optionalField "description" .string description
        ++ [("observations", Json.list ObservationDraft.toJson observations)]
        ++ Json.optionalField "relation_type" .string relationType
        ++ [("children", .array (TreeNode.listToJson children))])
termination_by structural node => node
def TreeNode.listToJson : List TreeNode → List Json
  | [] => []
  | node :: rest => node.toJson :: TreeNode.listToJson rest
termination_by structural nodes => nodes
end

def TreeDocument.toJson (document : TreeDocument) : Json :=
  .object [("version", .string document.version), ("exported_at", .string document.exportedAt),
    ("root_nodes", .array (TreeNode.listToJson document.roots))]

/-- The text of a document, with its fields in the order of their declaration. -/
def TreeDocument.toText (document : TreeDocument) : String := document.toJson.pretty

/-- The text of a document, with its fields in the order of their keys. -/
def TreeDocument.toSortedText (document : TreeDocument) : String := document.toJson.sortKeys.pretty

/-! ## Reading -/

/-- An observation from its fields as they were given. -/
def ObservationDraft.ofFields? (content createdAt : Option Json) : Option ObservationDraft := do
  let content ← (← content).string?
  let createdAt ← Json.optional? Json.string? createdAt
  return { content, createdAt }

def ObservationDraft.ofJson? : Json → Option ObservationDraft
  | .object fields =>
    ofFields? (Json.lastField? "content" fields) (Json.lastField? "created_at" fields)
  | .array items => if items.length ≤ 2 then ofFields? items[0]? items[1]? else none
  | _ => none

/-- The observations of a node. -/
def ObservationDraft.listOfJson? (j : Json) : Option (List ObservationDraft) :=
  j.array?.bind fun items => items.mapM ofJson?

/-- A node from its fields as they were given, and its children. -/
def TreeNode.ofFields? (name entityType aliases description observations relationType : Option Json)
    (children : List TreeNode) : Option TreeNode := do
  let name ← (← name).string?
  let entityType ← (← entityType).string?
  let aliases ← Json.optional? Json.string? aliases
  let description ← Json.optional? Json.string? description
  let observations ← Json.defaulted? [] ObservationDraft.listOfJson? observations
  let relationType ← Json.optional? Json.string? relationType
  return { name, entityType, aliases, description, observations, relationType, children }

mutual
/-- The node that a value stands for. -/
def TreeNode.ofJson? : Json → Option TreeNode
  | .object fields => do
    let children ← (TreeNode.childrenOfFields? fields).getD (some [])
    TreeNode.ofFields? (Json.lastField? "name" fields) (Json.lastField? "entity_type" fields)
      (Json.lastField? "aliases" fields) (Json.lastField? "description" fields)
      (Json.lastField? "observations" fields) (Json.lastField? "relation_type" fields) children
  | .array items => do
    let children ← TreeNode.childrenOfItems? 6 items
    TreeNode.ofFields? items[0]? items[1]? items[2]? items[3]? items[4]? items[5]? children
  | _ => none
termination_by structural j => j
/-- The nodes that the items of an array stand for. -/
def TreeNode.listOfItems? : List Json → Option (List TreeNode)
  | [] => some []
  | j :: rest => do
    let node ← TreeNode.ofJson? j
    let nodes ← TreeNode.listOfItems? rest
    return node :: nodes
termination_by structural items => items
/-- The nodes that an array of them stands for. -/
def TreeNode.listOfJson? : Json → Option (List TreeNode)
  | .array items => TreeNode.listOfItems? items
  | _ => none
termination_by structural j => j
/-- The children in the last field of their key, if there is one. -/
def TreeNode.childrenOfFields? : List (String × Json) → Option (Option (List TreeNode))
  | [] => none
  | (key, j) :: rest =>
    match TreeNode.childrenOfFields? rest with
    | some children => some children
    | none => if key = "children" then some (TreeNode.listOfJson? j) else none
termination_by structural fields => fields
/-- The children in the item behind `skipped` others, none when the array ends before it. -/
def TreeNode.childrenOfItems? : Nat → List Json → Option (List TreeNode)
  | _, [] => some []
  | 0, j :: rest => if rest.isEmpty then TreeNode.listOfJson? j else none
  | skipped + 1, _ :: rest => TreeNode.childrenOfItems? skipped rest
termination_by structural _ items => items
end

namespace TreeDocument

/-- The document that a value stands for; it must be an object with an array of roots. -/
def ofJson (j : Json) : Except Refusal TreeDocument :=
  match (j.get? "root_nodes").bind Json.array? with
  | none => .error .missingRootNodes
  | some items =>
    let document? : Option TreeDocument := do
      let version ← Json.defaulted? "" Json.string? (j.get? "version")
      let exportedAt ← Json.defaulted? "" Json.string? (j.get? "exported_at")
      let roots ← TreeNode.listOfItems? items
      return { version, exportedAt, roots }
    match document? with
    | some document => .ok document
    | none => .error .malformedDocument

/-- The document of a text. -/
def ofText (text : String) : Except Refusal TreeDocument :=
  match Json.read text with
  | .error e => .error (.invalidJson e.message)
  | .ok j => ofJson j

/-- The document of a value that is either the document or its text. -/
def ofJsonOrText : Json → Except Refusal TreeDocument
  | .string text => ofText text
  | j => ofJson j

end TreeDocument
end MemoryGraph
