-- SUMMARY: The paths that name the nodes of a tree document.

/-!
# Node paths

A node is named by the positions of its ancestors and itself among their
siblings. The path of the third child of the first root is written
`0.children.2`.
-/
namespace MemoryGraph

/-- The position of a root, then of the child at each level below it, the last first. -/
structure NodePath where
  root : Nat
  below : List Nat := []
  deriving DecidableEq, Repr

namespace NodePath

/-- The path of a child. -/
def child (path : NodePath) (index : Nat) : NodePath := { path with below := index :: path.below }

/-- The path as a text. -/
def render (path : NodePath) : String :=
  path.below.foldr (fun index text => text ++ ".children." ++ toString index) (toString path.root)

/-- The path of given positions, the root first. -/
def ofPositions? : List Nat → Option NodePath
  | [] => none
  | root :: below => some { root, below := below.reverse }

@[simp] theorem render_root (root : Nat) : render { root } = toString root := rfl

@[simp] theorem render_child (path : NodePath) (index : Nat) :
    (path.child index).render = path.render ++ ".children." ++ toString index := rfl

end NodePath
end MemoryGraph
