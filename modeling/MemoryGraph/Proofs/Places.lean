-- SUMMARY: Node paths are written differently when they differ, and the places of a document are its nodes in reading order.
import MemoryGraph.Proofs.Numerals
import MemoryGraph.Proofs.PathTree
import MemoryGraph.Proofs.Pieces
import MemoryGraph.Proofs.Visit

/-!
# Places of a document

A path is written as its positions with dots between them, and no digit is a dot:
cutting the text at its dots gives the positions back, however many digits they
have. The places of a document are the nodes that their paths lead to, each of
them once, a node before those below it and these before its next sibling.
-/
namespace MemoryGraph

open Text

namespace NodePath

/-- The positions on the way down to a node, that of its root first. -/
def positions (path : NodePath) : List Nat := path.root :: path.below.reverse

@[simp] theorem positions_child (path : NodePath) (index : Nat) :
    (path.child index).positions = path.positions ++ [index] := by
  simp [positions, child]

theorem positions_injective : Function.Injective positions := by
  intro path other h
  obtain ⟨hroot, hbelow⟩ := List.cons.inj h
  have hbelow : path.below = other.below := List.reverse_injective hbelow
  cases path
  cases other
  simp_all

/-! ## As texts -/

/-- The digits of a position. -/
def digits (index : Nat) : List Char := (toString index).toList

theorem digits_injective : Function.Injective digits := by
  intro i j h
  calc
    i = Nat.ofDigitChars 10 (digits i) 0 := (digits_toString i).value.symm
    _ = Nat.ofDigitChars 10 (digits j) 0 := by rw [h]
    _ = j := (digits_toString j).value

theorem no_dot_in_digits (index : Nat) : ∀ c ∈ digits index, (c == '.') = false := by
  intro c hc
  have hdigit : c.isDigit = true := (digits_toString index).isDigit c hc
  rw [beq_eq_false_iff_ne]
  rintro rfl
  exact absurd hdigit (by decide)

/-- What stands between the dots of a path. -/
def segments (path : NodePath) : List (List Char) :=
  digits path.root :: path.below.reverse.flatMap fun index => ["children".toList, digits index]

theorem pieces_render (path : NodePath) :
    pieces (· == '.') path.render.toList = path.segments := by
  obtain ⟨root, below⟩ := path
  induction below with
  | nil => exact pieces_of_no_cut (no_dot_in_digits root)
  | cons index below ih =>
    have hword : ∀ c ∈ "children".toList, (c == '.') = false := by simp
    have hstep : (render ⟨root, index :: below⟩).toList =
        (render ⟨root, below⟩).toList ++ '.' :: ("children".toList ++ '.' :: digits index) := by
      have hchild : render ⟨root, index :: below⟩ =
        render ⟨root, below⟩ ++ ".children." ++ toString index := rfl
      rw [hchild, String.toList_append, String.toList_append, List.append_assoc]
      rfl
    have hlast : pieces (· == '.') ("children".toList ++ '.' :: digits index) =
        "children".toList :: pieces (· == '.') (digits index) :=
      pieces_append_cut (digits index) hword rfl
    rw [hstep, pieces_append rfl, ih, hlast, pieces_of_no_cut (no_dot_in_digits index)]
    simp [segments]

theorem segments_injective : Function.Injective segments := by
  intro path other h
  obtain ⟨hroot, hbelow⟩ := List.cons.inj h
  have hroot := digits_injective hroot
  have hbelow : path.below.reverse = other.below.reverse := by
    generalize path.below.reverse = is at hbelow
    generalize other.below.reverse = js at hbelow
    induction is generalizing js with
    | nil => cases js <;> simp_all
    | cons i is ih =>
      cases js with
      | nil => simp at hbelow
      | cons j js =>
        simp only [List.flatMap_cons, List.cons_append, List.nil_append, List.cons.injEq,
          true_and] at hbelow
        rw [digits_injective hbelow.1, ih js hbelow.2]
  exact positions_injective (by rw [positions, positions, hroot, hbelow])

/-- Different paths are written differently. -/
theorem render_injective : Function.Injective render := by
  intro path other h
  apply segments_injective
  rw [← pieces_render, ← pieces_render, h]

end NodePath

/-! ## Places -/

/-- The node at a place of a document. -/
def TreeDocument.nodeAt? (document : TreeDocument) (path : NodePath) : Option TreeNode :=
  document.roots[path.root]?.bind (TreeNode.nodeAt? path.below.reverse)

variable {path : NodePath} {place : NodePath × TreeNode}

mutual
theorem TreeNode.mem_places (path : NodePath) (place : NodePath × TreeNode) :
    (node : TreeNode) → (place ∈ node.places path ↔ ∃ steps,
      place.1.positions = path.positions ++ steps ∧ node.nodeAt? steps = some place.2)
  | ⟨name, entityType, aliases, description, observations, relationType, children⟩ => by
    rw [TreeNode.places, List.mem_cons, TreeNode.mem_placesBelow]
    constructor
    · rintro (rfl | ⟨index, steps, hpath, hnode⟩)
      · exact ⟨[], by simp, rfl⟩
      · rw [Nat.zero_add] at hpath
        exact ⟨index :: steps, hpath, hnode⟩
    · rintro ⟨steps, hpath, hnode⟩
      cases steps with
      | nil =>
        left
        have hpath := NodePath.positions_injective (hpath.trans (List.append_nil _))
        exact Prod.ext hpath (Option.some.inj hnode).symm
      | cons index steps =>
        right
        exact ⟨index, steps, by rw [hpath, Nat.zero_add], hnode⟩
theorem TreeNode.mem_placesBelow (path : NodePath) (place : NodePath × TreeNode) (start : Nat) :
    (nodes : List TreeNode) → (place ∈ TreeNode.placesBelow path start nodes ↔ ∃ index steps,
      place.1.positions = path.positions ++ (start + index) :: steps ∧
        nodes[index]?.bind (TreeNode.nodeAt? steps) = some place.2)
  | [] => by simp [TreeNode.placesBelow]
  | node :: rest => by
    rw [TreeNode.placesBelow, List.mem_append, TreeNode.mem_places, TreeNode.mem_placesBelow]
    constructor
    · rintro (⟨steps, hpath, hnode⟩ | ⟨index, steps, hpath, hnode⟩)
      · exact ⟨0, steps, by simpa using hpath, hnode⟩
      · exact ⟨index + 1, steps, by rw [hpath, Nat.add_assoc, Nat.add_comm 1], hnode⟩
    · rintro ⟨index, steps, hpath, hnode⟩
      cases index with
      | zero => exact .inl ⟨steps, by simpa using hpath, hnode⟩
      | succ index =>
        exact .inr ⟨index, steps, by rw [hpath, Nat.add_assoc, Nat.add_comm 1], hnode⟩
end

theorem TreeDocument.mem_placesFrom (place : NodePath × TreeNode) (start : Nat)
    (nodes : List TreeNode) :
    place ∈ TreeDocument.placesFrom start nodes ↔ ∃ index steps,
      place.1.positions = (start + index) :: steps ∧
        nodes[index]?.bind (TreeNode.nodeAt? steps) = some place.2 := by
  induction nodes generalizing start with
  | nil => simp [TreeDocument.placesFrom]
  | cons node rest ih =>
    rw [TreeDocument.placesFrom, List.mem_append, TreeNode.mem_places, ih]
    constructor
    · rintro (⟨steps, hpath, hnode⟩ | ⟨index, steps, hpath, hnode⟩)
      · exact ⟨0, steps, hpath, hnode⟩
      · exact ⟨index + 1, steps, by rw [hpath, Nat.add_assoc, Nat.add_comm 1], hnode⟩
    · rintro ⟨index, steps, hpath, hnode⟩
      cases index with
      | zero => exact .inl ⟨steps, hpath, hnode⟩
      | succ index =>
        exact .inr ⟨index, steps, by rw [hpath, Nat.add_assoc, Nat.add_comm 1], hnode⟩


theorem NodePath.positions_eq_cons {path : NodePath} {index : Nat} {steps : List Nat} :
    path.positions = index :: steps ↔ path.root = index ∧ path.below.reverse = steps := by
  rw [positions, List.cons.injEq]

/-- The places of a document are those at which there is a node. -/
theorem TreeDocument.mem_places {document : TreeDocument} {path : NodePath} {node : TreeNode} :
    (path, node) ∈ document.places ↔ document.nodeAt? path = some node := by
  rw [TreeDocument.places, TreeDocument.mem_placesFrom, TreeDocument.nodeAt?]
  simp only [Nat.zero_add, NodePath.positions_eq_cons]
  constructor
  · rintro ⟨_, _, ⟨rfl, rfl⟩, hnode⟩
    exact hnode
  · intro hnode
    exact ⟨_, _, ⟨rfl, rfl⟩, hnode⟩

/-! ## The order of places -/

/-- The order in which a document is read: a node before those below it, and these before its next
sibling. It is that of a dictionary with positions for letters. -/
def NodePath.Precedes (a b : NodePath) : Prop := a.positions < b.positions

theorem NodePath.Precedes.ne {a b : NodePath} (h : a.Precedes b) : a ≠ b := by
  rintro rfl
  exact List.lt_irrefl a.positions h

theorem positions_lt_of_lt {front : List Nat} {i j : Nat} (h : i < j) (as bs : List Nat) :
    front ++ i :: as < front ++ j :: bs :=
  List.append_left_lt (List.cons_lt_cons_iff.2 (.inl h))

mutual
theorem TreeNode.pairwise_places (path : NodePath) :
    (node : TreeNode) → (node.places path).Pairwise fun a b => a.1.Precedes b.1
  | ⟨name, entityType, aliases, description, observations, relationType, children⟩ => by
    rw [TreeNode.places]
    refine List.Pairwise.cons ?_ (TreeNode.pairwise_placesBelow path 0 children)
    intro place hplace
    obtain ⟨index, steps, hpath, _⟩ := (TreeNode.mem_placesBelow path place 0 children).1 hplace
    rw [NodePath.Precedes, hpath]
    nth_rewrite 1 [← List.append_nil path.positions]
    exact List.append_left_lt (List.nil_lt_cons _ _)
theorem TreeNode.pairwise_placesBelow (path : NodePath) (start : Nat) :
    (nodes : List TreeNode) →
      (TreeNode.placesBelow path start nodes).Pairwise fun a b => a.1.Precedes b.1
  | [] => by
    rw [TreeNode.placesBelow]
    exact .nil
  | node :: rest => by
    rw [TreeNode.placesBelow]
    refine List.pairwise_append.2 ⟨TreeNode.pairwise_places _ node,
      TreeNode.pairwise_placesBelow path (start + 1) rest, ?_⟩
    intro a ha b hb
    obtain ⟨as, ha, _⟩ := (TreeNode.mem_places _ a node).1 ha
    obtain ⟨index, bs, hb, _⟩ := (TreeNode.mem_placesBelow path b (start + 1) rest).1 hb
    rw [NodePath.Precedes, ha, hb, NodePath.positions_child, List.append_assoc,
      List.singleton_append]
    exact positions_lt_of_lt (by omega) as bs
end

theorem TreeDocument.pairwise_placesFrom (start : Nat) (nodes : List TreeNode) :
    (TreeDocument.placesFrom start nodes).Pairwise fun a b => a.1.Precedes b.1 := by
  induction nodes generalizing start with
  | nil => exact .nil
  | cons node rest ih =>
    rw [TreeDocument.placesFrom]
    refine List.pairwise_append.2 ⟨TreeNode.pairwise_places _ node, ih (start + 1), ?_⟩
    intro a ha b hb
    obtain ⟨as, ha, _⟩ := (TreeNode.mem_places _ a node).1 ha
    obtain ⟨index, bs, hb, _⟩ := (TreeDocument.mem_placesFrom b (start + 1) rest).1 hb
    have hlt : start < start + 1 + index := by omega
    rw [NodePath.Precedes, ha, hb]
    exact List.cons_lt_cons_iff.2 (.inl hlt)

theorem TreeDocument.pairwise_places (document : TreeDocument) :
    document.places.Pairwise fun a b => a.1.Precedes b.1 :=
  TreeDocument.pairwise_placesFrom 0 document.roots

end MemoryGraph
