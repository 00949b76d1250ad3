-- SUMMARY: The text of an export is read back exactly when no simple path of links below it is too long.
import MemoryGraph.Proofs.DocumentText
import MemoryGraph.Proofs.PathTree

/-!
# How deep an export may be

A node of a document opens an object and the array of its children, so a text
nests twice as deep as the tree has levels, and the reader sets a limit to that.
The tree of an entity has a level for each relation of the longest path of links
that comes to no entity twice. Hence a text is read back when no such path has
more than 61 relations; the writer knows of no limit, and writes the others too.
-/
namespace MemoryGraph

open Json

/-! ## The nesting of a document -/

namespace Json

variable {n : Nat} {items : List Json} {fields : List (String × Json)}

theorem nestingItems_le : nestingItems items ≤ n ↔ ∀ j ∈ items, j.nesting ≤ n := by
  induction items with
  | nil => simp [nestingItems]
  | cons j rest ih => simp [nestingItems, ih]

theorem nestingFields_le : nestingFields fields ≤ n ↔ ∀ field ∈ fields, field.2.nesting ≤ n := by
  induction fields with
  | nil => simp [nestingFields]
  | cons field rest ih => simp [nestingFields, ih]

end Json

/-- The observations of a node open at most an array and an object. -/
theorem ObservationDraft.nesting_list (observations : List ObservationDraft) :
    (Json.list toJson observations).nesting ≤ 2 := by
  refine Nat.succ_le_succ (nestingItems_le.2 fun j hj => ?_)
  obtain ⟨o, -, rfl⟩ := List.mem_map.1 hj
  refine Nat.succ_le_succ (nestingFields_le.2 fun field hfield => ?_)
  rcases List.mem_cons.1 hfield with rfl | hcreated
  · exact Nat.le_refl 0
  · obtain ⟨s, hs⟩ := string_of_optionalField hcreated
    rw [hs]
    exact Nat.le_refl 0

namespace TreeNode

variable {node : TreeNode} {n : Nat}

theorem listToJson_eq_map (nodes : List TreeNode) : listToJson nodes = nodes.map toJson := by
  induction nodes with
  | nil => rfl
  | cons node rest ih => rw [listToJson, ih, List.map_cons]

theorem children_mem_fields (node : TreeNode) :
    ("children", .array (listToJson node.children)) ∈ node.fields := by
  simp [fields]

/-- Beside the two levels that it opens itself a node has those of its children. -/
theorem nesting_toJson_le (hn : 1 ≤ n) :
    node.toJson.nesting ≤ n + 2 ↔ ∀ child ∈ node.children, child.toJson.nesting ≤ n := by
  rw [toJson_eq, nesting, Nat.succ_le_succ_iff, nestingFields_le]
  constructor
  · intro h child hchild
    have harray := h ("children", .array (listToJson node.children)) node.children_mem_fields
    rw [nesting, Nat.succ_le_succ_iff, nestingItems_le, listToJson_eq_map] at harray
    exact harray _ (List.mem_map_of_mem hchild)
  · intro h
    refine forall_mem_fields (P := fun j => j.nesting ≤ n + 1) (fun _ => Nat.zero_le _) ?_ ?_
    · exact (ObservationDraft.nesting_list _).trans (Nat.succ_le_succ hn)
    · rw [nesting, Nat.succ_le_succ_iff, nestingItems_le, listToJson_eq_map, List.forall_mem_map]
      exact h

theorem two_le_nesting_toJson (node : TreeNode) : 2 ≤ node.toJson.nesting := by
  rw [toJson_eq, nesting]
  have harray := nestingFields_le.1 (Nat.le_refl _) _ node.children_mem_fields
  exact Nat.succ_le_succ (harray.trans' (Nat.succ_pos _))

/-- A tree nests twice for each of its levels, and once more for observations on the last one. -/
theorem nesting_toJson_le_iff {levels : Nat} :
    node.toJson.nesting ≤ 2 * levels + 1 ↔
      ∀ position, (node.nodeAt? position).isSome → position.length < levels := by
  induction levels generalizing node with
  | zero =>
    have hdeep : ¬ node.toJson.nesting ≤ 1 := by have := node.two_le_nesting_toJson; omega
    have hroot : (node.nodeAt? []).isSome := rfl
    simp only [Nat.mul_zero, Nat.zero_add, hdeep, false_iff]
    exact fun h => absurd (h [] hroot) (Nat.not_lt_zero _)
  | succ levels ih =>
    rw [show 2 * (levels + 1) + 1 = 2 * levels + 1 + 2 by omega, nesting_toJson_le (by omega)]
    simp only [ih]
    constructor
    · intro h position hposition
      cases position with
      | nil => exact Nat.succ_pos _
      | cons i below =>
        obtain ⟨descendant, hdescendant⟩ := Option.isSome_iff_exists.1 hposition
        obtain ⟨child, hchild, hbelow⟩ := Option.bind_eq_some_iff.1 hdescendant
        exact Nat.succ_lt_succ (h child (List.mem_of_getElem? hchild) below (by simp [hbelow]))
    · intro h child hchild position hposition
      obtain ⟨i, hi⟩ := List.mem_iff_getElem?.1 hchild
      exact Nat.lt_of_succ_lt_succ (h (i :: position) (by simpa [nodeAt?, hi] using hposition))

end TreeNode

theorem TreeDocument.nesting_toJson_le_iff {document : TreeDocument} :
    document.toJson.nesting ≤ nestingLimit ↔ ∀ root ∈ document.roots,
      ∀ position, (root.nodeAt? position).isSome → position.length ≤ 61 := by
  have hroot : document.toJson.nesting = nestingItems (TreeNode.listToJson document.roots) + 2 := by
    simp [toJson, nesting, nestingFields]
  have hlimit : nestingItems (TreeNode.listToJson document.roots) + 2 ≤ nestingLimit ↔
      nestingItems (TreeNode.listToJson document.roots) ≤ 2 * 62 + 1 := by
    rw [nestingLimit]
    omega
  rw [hroot, hlimit, nestingItems_le, TreeNode.listToJson_eq_map, List.forall_mem_map]
  simp only [TreeNode.nesting_toJson_le_iff, Nat.lt_succ_iff]

/-! ## Exports -/

/-- No path of links from one of the given entities that comes to no entity twice has more than 61
relations. -/
def Store.Shallow (s : Store) (ids : List Id) : Prop :=
  ∀ id ∈ ids, s.HasEntity id → ∀ path, s.SimplePath id path → path.length ≤ 61

theorem Store.nesting_exportTrees {s : Store} (hs : s.Sound) (exportedAt : Timestamp)
    (ids : List Id) :
    (s.exportTrees exportedAt ids).toJson.nesting ≤ nestingLimit ↔ s.Shallow ids := by
  rw [TreeDocument.nesting_toJson_le_iff]
  constructor
  · rintro h id hid ⟨e, he, rfl⟩ path hpath
    have hfind : s.entity? e.id = some e := hs.keyed.entity?_eq_some.2 ⟨he, rfl⟩
    have hroot : s.exportNode e none [e.id] ∈ (s.exportTrees exportedAt ids).roots :=
      List.mem_filterMap.2 ⟨e.id, hid, by simp [hfind]⟩
    have hplace := (bijOn_placeFrom hs.keyed hs.linked he).mapsTo hpath
    simpa [length_placeFrom] using h _ hroot _ hplace
  · intro h root hroot position hposition
    obtain ⟨id, hid, hfind⟩ := List.mem_filterMap.1 hroot
    obtain ⟨e, he, rfl⟩ := Option.map_eq_some_iff.1 hfind
    obtain ⟨hmem, rfl⟩ := hs.keyed.entity?_eq_some.1 he
    obtain ⟨path, hpath, rfl⟩ := exists_path hs.keyed hs.linked hposition
    rw [length_placeFrom]
    exact h e.id hid ⟨e, hmem, rfl⟩ path (simplePath_iff.2 hpath)

/-- The text of an export of a store that a run makes is read back as what was exported when no
path of links below is too long; otherwise it is refused as a text that is no JSON. -/
theorem readable_iff_shallow {s : Store} (h : Reachable s) (exportedAt : Timestamp)
    (ids : List Id) :
    (s.Shallow ids →
      TreeDocument.ofText (s.exportText exportedAt ids) = .ok (s.exportTrees exportedAt ids)) ∧
    (¬ s.Shallow ids → TreeDocument.ofText (s.exportText exportedAt ids) =
      .error (.invalidJson ReadError.tooDeep.message)) := by
  rw [Store.exportText, TreeDocument.ofText_toText,
    ← Store.nesting_exportTrees h.sound exportedAt ids]
  exact ⟨fun hshallow => if_pos hshallow, fun hdeep => if_neg hdeep⟩

/-- Entities that are each the parent of the next, joined by the given number of relations. -/
def Store.ladder (steps : Nat) : Store :=
  let now : Moment := .ofNanoseconds 0
  Store.run .empty
    (((List.range (steps + 1)).map fun i =>
        (now, .addEntity { name := toString i, entityType := "Module" }))
      ++ (List.range steps).map fun i =>
        (now, .relate (Int.ofNat i + 2) (Int.ofNat i + 1) "part_of"))

namespace Store

instance decidableWalksDown (s : Store) :
    (id : Id) → (path : List Relation) → Decidable (s.WalksDown id path)
  | _, [] => .isTrue trivial
  | id, r :: rest =>
    have := decidableWalksDown s r.lower rest
    inferInstanceAs (Decidable (r ∈ s.relations ∧ r.upper = id ∧ s.WalksDown r.lower rest))

instance decidableSimplePath (s : Store) (root : Id) (path : List Relation) :
    Decidable (s.SimplePath root path) :=
  decidable_of_iff (s.WalksDown root path ∧ (root :: path.map Relation.lower).Nodup)
    ⟨fun h => ⟨h.1, h.2⟩, fun h => ⟨h.walks, h.nodup⟩⟩

end Store

/-- One relation more makes the difference. -/
theorem readable_ladders :
    TreeDocument.ofText ((Store.ladder 61).exportText "" [1]) =
        .ok ((Store.ladder 61).exportTrees "" [1]) ∧
      TreeDocument.ofText ((Store.ladder 62).exportText "" [1]) =
        .error (.invalidJson "nested too deeply") := by
  have hshort : Reachable (Store.ladder 61) := Reachable.empty.run _
  have hlong : Reachable (Store.ladder 62) := Reachable.empty.run _
  have hfew : (Store.ladder 61).entities.length = 62 := by decide +kernel
  have hdeep : (Store.ladder 62).HasEntity 1 ∧
      (Store.ladder 62).SimplePath 1 (Store.ladder 62).relations ∧
      (Store.ladder 62).relations.length = 62 := by
    decide +kernel
  refine ⟨(readable_iff_shallow hshort "" [1]).1 fun id _ hid path h => ?_,
    (readable_iff_shallow hlong "" [1]).2 fun h => ?_⟩
  · have hlt := h.length_lt hshort.sound.linked hid
    omega
  · obtain ⟨hthere, hpath, hmany⟩ := hdeep
    have hle := h 1 (List.mem_singleton_self 1) hthere _ hpath
    omega

end MemoryGraph
