-- SUMMARY: A document is read back from its text, whatever the order of the fields in it.
import MemoryGraph.Proofs.JsonText
import MemoryGraph.Proofs.Outcome
import MemoryGraph.Tree.Codec
import Mathlib.Data.List.Nodup
import Mathlib.Data.List.Perm.Basic

/-!
# Documents and their texts

A reader that looks its fields up by their keys does not see the order they stand
in, as long as no key is there twice. So a document is read back from its value,
and from any value that has the same fields in another order at every level; the
two texts of a document are those of its value and of its value with sorted keys.
-/
namespace MemoryGraph
namespace Json

variable {key : String} {j : Json} {fields others : List (String × Json)} {f : Json → Json}

/-! ## Fields by their keys -/

theorem lastField?_nil (key : String) : lastField? key [] = none := rfl

theorem lastField?_cons (key : String) (field : String × Json) (rest : List (String × Json)) :
    lastField? key (field :: rest) =
      (lastField? key rest).or (if field.1 = key then some field.2 else none) := by
  have hfold : ∀ (fields : List (String × Json)) (found : Option Json),
      fields.foldl (fun found field => if field.1 = key then some field.2 else found) found =
        (lastField? key fields).or found := by
    intro fields
    induction fields with
    | nil => intro found; rfl
    | cons field rest ih =>
      intro found
      rw [lastField?, List.foldl_cons, ih, List.foldl_cons, ih]
      cases lastField? key rest with
      | some j => rfl
      | none => by_cases h : field.1 = key <;> simp [h]
  exact hfold rest _

theorem lastField?_append (key : String) (fields more : List (String × Json)) :
    lastField? key (fields ++ more) = (lastField? key more).or (lastField? key fields) := by
  induction fields with
  | nil => simp [lastField?_nil]
  | cons field rest ih =>
    rw [List.cons_append, lastField?_cons, ih, lastField?_cons, Option.or_assoc]

theorem lastField?_optionalField {α : Type} (key given : String) (g : α → Json) (a : Option α) :
    lastField? key (optionalField given g a) = if given = key then a.map g else none := by
  cases a <;> simp [optionalField, lastField?]

theorem lastField?_eq_some (h : (fields.map Prod.fst).Nodup) :
    lastField? key fields = some j ↔ (key, j) ∈ fields := by
  induction fields generalizing key j with
  | nil => simp [lastField?_nil]
  | cons field rest ih =>
    obtain ⟨hnew, hrest⟩ := List.nodup_cons.1 h
    have hnone : lastField? field.1 rest = none := by
      rw [Option.eq_none_iff_forall_ne_some]
      exact fun other hother => hnew (List.mem_map.2 ⟨_, (ih hrest).1 hother, rfl⟩)
    rw [lastField?_cons, Option.or_eq_some_iff, ih hrest, List.mem_cons]
    constructor
    · rintro (hmem | ⟨_, hfirst⟩)
      · exact .inr hmem
      · split at hfirst
        · rename_i hkey
          cases hfirst
          exact .inl (by rw [← hkey])
        · cases hfirst
    · rintro (rfl | hmem)
      · exact .inr ⟨hnone, if_pos rfl⟩
      · exact .inl hmem

theorem optional?_map_string (h : ∀ s, f (.string s) = .string s) (text : Option String) :
    optional? string? (text.map (f ∘ Json.string)) = some text := by
  cases text with
  | none => rfl
  | some s => simp [h, optional?, string?]

/-- The field of an optional text holds a text. -/
theorem string_of_optionalField {text : Option String} {field : String × Json}
    (h : field ∈ optionalField key .string text) : ∃ s, field.2 = .string s := by
  cases text with
  | none => cases h
  | some s =>
    obtain rfl := List.mem_singleton.1 h
    exact ⟨s, rfl⟩

/-! ## The order of fields -/

/-- A change of values that at most puts the fields of their objects in another order, at every
level. -/
structure Rearranges (f : Json → Json) : Prop where
  string : ∀ s, f (.string s) = .string s
  array : ∀ items, f (.array items) = .array (items.map f)
  object : ∀ fields, ∃ others, f (.object fields) = .object others ∧
    others.Perm (fields.map fun field => (field.1, f field.2))

/-- The fields of an object are where they were, by their keys. -/
theorem Rearranges.lookup (h : Rearranges f) (hkeys : (fields.map Prod.fst).Nodup) :
    ∃ others, f (.object fields) = .object others ∧
      ∀ key, lastField? key others = (lastField? key fields).map f := by
  obtain ⟨others, hobject, hperm⟩ := h.object fields
  have hothers : (others.map Prod.fst).Nodup := by
    rw [(hperm.map Prod.fst).nodup_iff, List.map_map]
    exact hkeys
  refine ⟨others, hobject, fun key => Option.ext fun j => ?_⟩
  rw [lastField?_eq_some hothers, hperm.mem_iff, Option.map_eq_some_iff]
  simp only [lastField?_eq_some hkeys, List.mem_map, Prod.mk.injEq, Prod.exists]
  constructor
  · rintro ⟨k, v, hmem, rfl, rfl⟩
    exact ⟨v, hmem, rfl⟩
  · rintro ⟨v, hmem, rfl⟩
    exact ⟨_, v, hmem, rfl, rfl⟩

theorem rearranges_id : Rearranges id where
  string _ := rfl
  array items := by simp
  object fields := ⟨fields, rfl, by simp⟩

theorem insertField_perm (field : String × Json) (fields : List (String × Json)) :
    (insertField field fields).Perm (field :: fields) := by
  induction fields with
  | nil => exact .refl _
  | cons other rest ih =>
    rw [insertField]
    split
    · exact (ih.cons other).trans (.swap field other rest)
    · exact .refl _

theorem sortKeysItems_eq (items : List Json) : sortKeysItems items = items.map sortKeys := by
  induction items with
  | nil => rw [sortKeysItems, List.map_nil]
  | cons j rest ih => rw [sortKeysItems, ih, List.map_cons]

theorem sortKeysFields_perm (fields : List (String × Json)) :
    (sortKeysFields fields).Perm (fields.map fun field => (field.1, sortKeys field.2)) := by
  induction fields with
  | nil => rw [sortKeysFields]; exact .refl _
  | cons field rest ih =>
    rw [sortKeysFields, List.map_cons]
    exact (insertField_perm _ _).trans (ih.cons _)

theorem rearranges_sortKeys : Rearranges sortKeys where
  string s := by rw [sortKeys] <;> simp
  array items := by rw [sortKeys, sortKeysItems_eq]
  object fields := ⟨_, by rw [sortKeys], sortKeysFields_perm fields⟩

/-! ## Sorted keys change neither the nesting nor the kinds of values -/

theorem nestingFields_perm (h : others.Perm fields) :
    nestingFields others = nestingFields fields := by
  induction h with
  | nil => rfl
  | cons field _ ih => rw [nestingFields, nestingFields, ih]
  | swap a b rest => simp only [nestingFields, Nat.max_left_comm]
  | trans _ _ ih ih' => exact ih.trans ih'

mutual
theorem nesting_sortKeys : (j : Json) → (sortKeys j).nesting = j.nesting
  | .array items => by rw [sortKeys, nesting, nesting, nestingItems_sortKeys items]
  | .object fields => by rw [sortKeys, nesting, nesting, nestingFields_sortKeys fields]
  | .null => by rw [sortKeys] <;> simp
  | .bool _ => by rw [sortKeys] <;> simp
  | .number _ => by rw [sortKeys] <;> simp
  | .string _ => by rw [sortKeys] <;> simp
theorem nestingItems_sortKeys : (items : List Json) →
    nestingItems (sortKeysItems items) = nestingItems items
  | [] => by rw [sortKeysItems]
  | j :: rest => by
    rw [sortKeysItems, nestingItems, nestingItems, nesting_sortKeys j, nestingItems_sortKeys rest]
theorem nestingFields_sortKeys : (fields : List (String × Json)) →
    nestingFields (sortKeysFields fields) = nestingFields fields
  | [] => by rw [sortKeysFields]
  | (key, j) :: rest => by
    rw [sortKeysFields, nestingFields_perm (insertField_perm _ _), nestingFields, nestingFields,
      nesting_sortKeys j, nestingFields_sortKeys rest]
end

theorem textualItems_iff {items : List Json} : TextualItems items ↔ ∀ j ∈ items, j.Textual := by
  induction items with
  | nil => simp [TextualItems]
  | cons j rest ih => simp [TextualItems, ih]

theorem textualFields_iff : TextualFields fields ↔ ∀ field ∈ fields, field.2.Textual := by
  induction fields with
  | nil => simp [TextualFields]
  | cons field rest ih => simp [TextualFields, ih]

mutual
theorem textual_sortKeys : (j : Json) → j.Textual → (sortKeys j).Textual
  | .array items, h => by
    rw [sortKeys]
    exact textualItems_sortKeys items h
  | .object fields, h => by
    rw [sortKeys]
    exact textualFields_sortKeys fields h
  | .string _, h => by rw [sortKeys] <;> simp [h]
theorem textualItems_sortKeys : (items : List Json) → TextualItems items →
    TextualItems (sortKeysItems items)
  | [], h => by rw [sortKeysItems]; exact h
  | j :: rest, h => by
    rw [sortKeysItems]
    exact ⟨textual_sortKeys j h.1, textualItems_sortKeys rest h.2⟩
theorem textualFields_sortKeys : (fields : List (String × Json)) → TextualFields fields →
    TextualFields (sortKeysFields fields)
  | [], h => by rw [sortKeysFields]; exact h
  | (key, j) :: rest, h => by
    have htail := textualFields_iff.1 (textualFields_sortKeys rest h.2)
    rw [sortKeysFields, textualFields_iff]
    intro field hfield
    rcases List.mem_cons.1 ((insertField_perm _ _).mem_iff.1 hfield) with rfl | hrest
    · exact textual_sortKeys j h.1
    · exact htail field hrest
end

end Json

/-! ## Reading values of documents -/

open Json

section Values

variable {f : Json → Json} {document : TreeDocument}

theorem mapM_map_of_forall {α β : Type} {g : α → β} {r : β → Option α} {as : List α}
    (h : ∀ a ∈ as, r (g a) = some a) : (as.map g).mapM r = some as :=
  mapM_eq_some.2 (List.forall₂_map_left_iff.2 (List.forall₂_same.2 h))

theorem ObservationDraft.ofJson?_toJson (h : Rearranges f) (o : ObservationDraft) :
    ofJson? (f o.toJson) = some o := by
  obtain ⟨content, createdAt⟩ := o
  have hkeys : ((("content", Json.string content)
      :: optionalField "created_at" .string createdAt).map Prod.fst).Nodup := by
    cases createdAt <;> simp [optionalField]
  obtain ⟨others, hobject, hlookup⟩ := h.lookup hkeys
  rw [toJson, hobject, ofJson?, hlookup, hlookup]
  simp [lastField?_cons, lastField?_optionalField, optional?_map_string h.string, ofFields?,
    h.string, string?]

theorem ObservationDraft.listOfJson?_list (h : Rearranges f)
    (observations : List ObservationDraft) :
    listOfJson? (f (Json.list toJson observations)) = some observations := by
  rw [Json.list, h.array, List.map_map]
  exact mapM_map_of_forall fun o _ => ofJson?_toJson h o

theorem TreeNode.childrenOfFields?_eq (fields : List (String × Json)) :
    childrenOfFields? fields = (lastField? "children" fields).map listOfJson? := by
  induction fields with
  | nil => rw [childrenOfFields?, lastField?_nil, Option.map_none]
  | cons field rest ih =>
    obtain ⟨key, j⟩ := field
    rw [childrenOfFields?, ih, lastField?_cons]
    cases lastField? "children" rest with
    | some c => rfl
    | none => by_cases hkey : key = "children" <;> simp [hkey]

/-- The fields of a node, in the order of their declaration. -/
def TreeNode.fields (node : TreeNode) : List (String × Json) :=
  [("name", .string node.name), ("entity_type", .string node.entityType)]
    ++ optionalField "aliases" .string node.aliases
    ++ optionalField "description" .string node.description
    ++ [("observations", Json.list ObservationDraft.toJson node.observations)]
    ++ optionalField "relation_type" .string node.relationType
    ++ [("children", .array (TreeNode.listToJson node.children))]

theorem TreeNode.toJson_eq (node : TreeNode) : node.toJson = .object node.fields := by
  cases node
  rw [toJson, fields]

theorem TreeNode.nodup_keys (node : TreeNode) : (node.fields.map Prod.fst).Nodup := by
  obtain ⟨name, entityType, aliases, description, observations, relationType, children⟩ := node
  cases aliases <;> cases description <;> cases relationType <;> simp [fields, optionalField]

/-- The fields of a node are texts, the observations and the children. -/
theorem TreeNode.forall_mem_fields {P : Json → Prop} {node : TreeNode}
    (hstring : ∀ s, P (.string s))
    (hobservations : P (Json.list ObservationDraft.toJson node.observations))
    (hchildren : P (.array (listToJson node.children))) : ∀ field ∈ node.fields, P field.2 := by
  intro field hfield
  have hoptional {key : String} {text : Option String}
      (h : field ∈ optionalField key .string text) : P field.2 := by
    obtain ⟨s, hs⟩ := string_of_optionalField h
    exact hs ▸ hstring s
  simp only [fields, List.mem_append, List.mem_cons, List.not_mem_nil, or_false] at hfield
  rcases hfield with ((((((rfl | rfl) | haliases) | hdescription) | rfl) | hrelation) | rfl)
  · exact hstring node.name
  · exact hstring node.entityType
  · exact hoptional haliases
  · exact hoptional hdescription
  · exact hobservations
  · exact hoptional hrelation
  · exact hchildren

mutual
theorem TreeNode.ofJson?_toJson (h : Rearranges f) :
    (node : TreeNode) → ofJson? (f node.toJson) = some node
  | ⟨name, entityType, aliases, description, observations, relationType, children⟩ => by
    have hchildren : listOfJson? (f (.array (listToJson children))) = some children := by
      rw [h.array, listOfJson?, listOfItems?_listToJson h children]
    have hobservations := ObservationDraft.listOfJson?_list h observations
    obtain ⟨others, hobject, hlookup⟩ := h.lookup (TreeNode.nodup_keys
      ⟨name, entityType, aliases, description, observations, relationType, children⟩)
    rw [toJson_eq, hobject, ofJson?, childrenOfFields?_eq]
    simp only [hlookup, fields]
    simp [lastField?_append, lastField?_cons, lastField?_nil, lastField?_optionalField,
      optional?_map_string h.string, ofFields?, h.string, string?, defaulted?, hchildren,
      hobservations]
theorem TreeNode.listOfItems?_listToJson (h : Rearranges f) : (nodes : List TreeNode) →
    listOfItems? ((listToJson nodes).map f) = some nodes
  | [] => by rw [listToJson, List.map_nil, listOfItems?]
  | node :: rest => by
    rw [listToJson, List.map_cons, listOfItems?, TreeNode.ofJson?_toJson h node,
      TreeNode.listOfItems?_listToJson h rest]
    rfl
end

theorem TreeDocument.ofJson_toJson (h : Rearranges f) (document : TreeDocument) :
    ofJson (f document.toJson) = .ok document := by
  obtain ⟨version, exportedAt, roots⟩ := document
  have hkeys : (([("version", .string version), ("exported_at", .string exportedAt),
      ("root_nodes", .array (TreeNode.listToJson roots))] : List (String × Json)).map
        Prod.fst).Nodup := by
    simp
  obtain ⟨others, hobject, hlookup⟩ := h.lookup hkeys
  rw [toJson, hobject, ofJson]
  simp [get?, hlookup, lastField?_cons, lastField?_nil, h.array, array?, defaulted?, string?,
    h.string, TreeNode.listOfItems?_listToJson h]

end Values

/-! ## Texts of documents -/

theorem ObservationDraft.textual_toJson (o : ObservationDraft) : o.toJson.Textual := by
  refine textualFields_iff.2 fun field hfield => ?_
  rcases List.mem_cons.1 hfield with rfl | hcreated
  · exact trivial
  · obtain ⟨s, hs⟩ := string_of_optionalField hcreated
    rw [hs]
    exact trivial

theorem ObservationDraft.textual_list (observations : List ObservationDraft) :
    (Json.list toJson observations).Textual := by
  refine textualItems_iff.2 fun j hj => ?_
  obtain ⟨o, -, rfl⟩ := List.mem_map.1 hj
  exact o.textual_toJson

mutual
theorem TreeNode.textual_toJson : (node : TreeNode) → node.toJson.Textual
  | ⟨name, entityType, aliases, description, observations, relationType, children⟩ => by
    rw [toJson_eq]
    exact textualFields_iff.2 (forall_mem_fields (fun _ => trivial)
      (ObservationDraft.textual_list observations) (textual_listToJson children))
theorem TreeNode.textual_listToJson : (nodes : List TreeNode) → TextualItems (listToJson nodes)
  | [] => trivial
  | node :: rest => ⟨textual_toJson node, textual_listToJson rest⟩
end

namespace TreeDocument

variable {document : TreeDocument}

theorem textual_toJson (document : TreeDocument) : document.toJson.Textual :=
  ⟨trivial, trivial, TreeNode.textual_listToJson document.roots, trivial⟩

/-- A text of a document gives it back when it nests no more than the reader allows. -/
theorem ofText_pretty {f : Json → Json} (h : Rearranges f)
    (htextual : (f document.toJson).Textual) :
    ofText (f document.toJson).pretty =
      if (f document.toJson).nesting ≤ nestingLimit then .ok document
      else .error (.invalidJson ReadError.tooDeep.message) := by
  rw [ofText, read_pretty htextual]
  by_cases hnesting : (f document.toJson).nesting ≤ nestingLimit
  · simp only [if_pos hnesting, ofJson_toJson h]
  · simp only [if_neg hnesting]

theorem ofText_toText (document : TreeDocument) :
    ofText document.toText =
      if document.toJson.nesting ≤ nestingLimit then .ok document
      else .error (.invalidJson ReadError.tooDeep.message) := by
  have hid : (id document.toJson).Textual := document.textual_toJson
  simpa only [toText, id_eq] using ofText_pretty rearranges_id hid

theorem ofText_toSortedText (document : TreeDocument) :
    ofText document.toSortedText =
      if document.toJson.nesting ≤ nestingLimit then .ok document
      else .error (.invalidJson ReadError.tooDeep.message) := by
  rw [toSortedText, ofText_pretty rearranges_sortKeys (textual_sortKeys _ document.textual_toJson),
    nesting_sortKeys]

/-- A document that does not nest too deeply is read back from both of its texts: the one with the
fields in the order of their declaration, and the one with sorted keys. -/
theorem reread_of_nesting (document : TreeDocument) (h : document.toJson.nesting ≤ nestingLimit) :
    ofText document.toText = .ok document ∧ ofText document.toSortedText = .ok document := by
  rw [ofText_toText, ofText_toSortedText, if_pos h]
  exact ⟨rfl, rfl⟩

/-- A document with texts that are written with escapes, with texts that are left out, and with
observations and children at more than one level. -/
def escaping : TreeDocument where
  version := "\"1.0\""
  exportedAt := ""
  roots :=
    [{ name := "C:\\dir\n\u0001\u001f\u007f"
       entityType := "Straße \u20ac \u00e9"
       aliases := some ""
       observations := [⟨"\t/\u0008\u000c\r", none⟩, ⟨"", some "then"⟩]
       children :=
         [{ name := "𝒳", entityType := "", description := some "\\u0041",
            relationType := some "part_of" },
          { name := "", entityType := "\x00", children := [{ name := "a", entityType := "b" }] }] },
     { name := "null", entityType := "[]" }]

theorem reread_escaping :
    escaping.toJson.nesting = 8 ∧
      ofText escaping.toText = .ok escaping ∧ ofText escaping.toSortedText = .ok escaping :=
  ⟨by decide, reread_of_nesting escaping (by decide)⟩

end TreeDocument
end MemoryGraph
