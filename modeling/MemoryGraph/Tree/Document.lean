-- SUMMARY: Tree documents: the portable form of a part of the graph.
import MemoryGraph.Record.Basic

/-!
# Tree documents

A document holds trees of nodes. A node has the texts of an entity, its
observations, and its children; the relation type of a child says how it is
linked to its parent.
-/
namespace MemoryGraph

/-- An entity in a tree, with what hangs below it. -/
structure TreeNode where
  name : String
  entityType : String
  aliases : Option String := none
  description : Option String := none
  observations : List ObservationDraft := []
  relationType : Option String := none
  children : List TreeNode := []
  deriving Repr, BEq

/-- Trees with the version of their format and the moment of their export. -/
structure TreeDocument where
  version : String := ""
  exportedAt : Timestamp := ""
  roots : List TreeNode
  deriving Repr, BEq

/-- The version of the format that exports are in. -/
def currentVersion : String := "1.0"

mutual
/-- How many nodes a tree has. -/
def TreeNode.count : TreeNode → Nat
  | ⟨_, _, _, _, _, _, children⟩ => 1 + TreeNode.countAll children
termination_by structural node => node
/-- How many nodes several trees have. -/
def TreeNode.countAll : List TreeNode → Nat
  | [] => 0
  | node :: rest => node.count + TreeNode.countAll rest
termination_by structural nodes => nodes
end

/-- How many nodes a document has. -/
def TreeDocument.size (document : TreeDocument) : Nat := TreeNode.countAll document.roots

end MemoryGraph
