-- SUMMARY: What a store file says that it holds, and how many records that is.
import MemoryGraph.Record.Basic
import MemoryGraph.StoreFile.Definition
import MemoryGraph.StoreFile.Row
import MemoryGraph.Text.Pieces

/-!
# Catalogues

The tree under page 1 of a store file is its catalogue: a row for each table,
index and view, with the page that it starts on and the text that defines it. A
store needs three tables with indexes on some of their columns. What is missing
is made when the store is opened, which fails when a table is there without a
column that an index needs, or when something else bears the name.
-/
namespace MemoryGraph

open Text

/-- A table of a catalogue. Names are kept in small letters. -/
structure TableEntry where
  name : String
  columns : List String
  root : Nat
  /-- How many indexes belong to its definition. -/
  inherent : Nat
  deriving DecidableEq, Repr

/-- What a catalogue lists. -/
structure Catalogue where
  tables : List TableEntry := []
  /-- The names of views and of tables that keep their rows elsewhere. -/
  views : List String := []
  indexes : List String := []
  deriving DecidableEq, Repr

namespace Catalogue

/-- The units of two bytes in a list of bytes. -/
def unitsOf (combine : Nat → Nat → Nat) : List Nat → List Nat
  | a :: b :: rest => combine a b :: unitsOf combine rest
  | _ => []

/-- The text in some bytes, by the encoding that the header of its file names. -/
def textOfBytes? (image : FileImage) (bytes : List Nat) : Option String :=
  match image.byte 59 % 4 with
  | 2 => some (String.ofList ((unitsOf (fun low high => high * 256 + low) bytes).map Char.ofNat))
  | 3 => some (String.ofList ((unitsOf (fun high low => high * 256 + low) bytes).map Char.ofNat))
  | _ => String.fromUTF8? ⟨(bytes.map UInt8.ofNat).toArray⟩

/-- The text of a value that has one; a row may be too short to have the value. -/
def text? (image : FileImage) : Option FileImage.Value → Option (Option String)
  | none | some .null => some none
  | some (.integer n) => some (some (toString n))
  | some .fraction => none
  | some (.bytes bytes) => (textOfBytes? image bytes).map some

/-- Whether a name is taken. -/
def holds (catalogue : Catalogue) (name : String) : Bool :=
  catalogue.tables.any (fun table => table.name = name) || catalogue.views.contains name
    || catalogue.indexes.contains name

/-- Take in what a definition defines, with the page that it starts on; a view starts on none. Its
name must be free, though an index may take that of a table, the columns of a table must have
different names, and an index must belong to a table with its columns. -/
def define? (catalogue : Catalogue) (root : Nat) : Definition.Defined → Option Catalogue
  | .table name columns inherent =>
    let columns := columns.map foldAscii
    if catalogue.holds (foldAscii name) || !columns.Nodup || root = 1 then none
    else
      let table : TableEntry := ⟨foldAscii name, columns, root, inherent⟩
      some { catalogue with tables := catalogue.tables ++ [table] }
  | .index name table columns =>
    let fits (entry : TableEntry) : Bool :=
      entry.name = foldAscii table && columns.all fun c => entry.columns.contains (foldAscii c)
    if catalogue.indexes.contains (foldAscii name) || !catalogue.tables.any fits then none
    else some { catalogue with indexes := foldAscii name :: catalogue.indexes }
  | .view name | .foreignTable name =>
    if catalogue.holds (foldAscii name) || root ≠ 0 then none
    else some { catalogue with views := foldAscii name :: catalogue.views }
  | .trigger _ => some catalogue

/-- Whether two texts are the same but for small and capital letters. -/
def agrees (a : Option String) (b : String) : Bool := a.any fun a => foldAscii a = foldAscii b

/-- Whether a name is that of an index that belongs to the definition of a table. -/
def namesInherent (catalogue : Catalogue) (name : String) : Bool :=
  catalogue.tables.any fun table =>
    (List.range table.inherent).any fun i =>
      foldAscii name = s!"sqlite_autoindex_{table.name}_{i + 1}"

/-- Take in a row. The columns before its definition repeat what that says; only an index that
belongs to the definition of a table has none of its own. -/
def add? (image : FileImage) (catalogue : Catalogue) (row : List FileImage.Value) :
    Option Catalogue := do
  let kind ← text? image row[0]?
  let name ← text? image row[1]?
  let table ← text? image row[2]?
  let rootText ← ← text? image row[3]?
  let definition := (← text? image row[4]?).getD ""
  let root ← if rootText.toList.all Char.isDigit then rootText.toNat? else none
  if image.pageCount < root then none
  else if "cr".toList.isPrefixOf (foldAscii definition).toList then
    let defined ← Definition.ofText? definition
    let (ownKind, ownName, ownTable) := defined.heading
    if agrees kind ownKind && agrees name ownName && ownTable.all (agrees table) then
      catalogue.define? root defined
    else none
  else if definition.isEmpty && name.any catalogue.namesInherent then some catalogue
  else none

/-- The catalogue of a file. -/
def ofImage? (image : FileImage) : Option Catalogue := do
  let cells ← image.cells? 1
  cells.foldlM (fun catalogue cell => do catalogue.add? image (← image.row? 5 cell)) {}

/-! ## What a store needs -/

/-- The tables of a store. -/
def neededTables : List String := ["entities", "observations", "relations"]

/-- The indexes of a store, with their tables and columns. -/
def neededIndexes : List (String × String × List String) :=
  [("idx_entity_name", "entities", ["name"]),
   ("idx_entity_type", "entities", ["entity_type"]),
   ("idx_observation_entity", "observations", ["entity_id"]),
   ("idx_from", "relations", ["from_entity_id"]),
   ("idx_to", "relations", ["to_entity_id"]),
   ("idx_relations_from_type", "relations", ["from_entity_id", "relation_type"]),
   ("idx_relations_to_type", "relations", ["to_entity_id", "relation_type"])]

/-- The entry of a table. -/
def table? (catalogue : Catalogue) (name : String) : Option TableEntry :=
  catalogue.tables.find? fun table => table.name = name

/-- Whether the rows of a table can be read as far as a column of it. -/
def canIndex (image : FileImage) (table : TableEntry) (column : String) : Bool :=
  match table.columns.findIdx? (· = column), image.cells? table.root with
  | some i, some cells => cells.all fun cell => (image.row? (i + 1) cell).isSome
  | _, _ => false

/-- Whether an index is there or can be made. -/
def admitsIndex (catalogue : Catalogue) (image : FileImage) :
    String × String × List String → Bool
  | (name, tableName, columns) =>
    !catalogue.views.contains tableName && (catalogue.table? name).isNone
      && !catalogue.views.contains name
      && (catalogue.indexes.contains name
        || (catalogue.table? tableName).all fun table => columns.all (canIndex image table))

/-- Whether nothing is missing. -/
def isComplete (catalogue : Catalogue) : Bool :=
  neededTables.all (fun name => (catalogue.table? name).isSome)
    && neededIndexes.all (fun (name, _, _) => catalogue.indexes.contains name)

/-- Whether all that is missing can be made. -/
def admitsStore (catalogue : Catalogue) (image : FileImage) : Bool :=
  neededTables.all (fun name =>
      (catalogue.table? name).isSome || catalogue.views.contains name
        || !catalogue.indexes.contains name)
    && neededIndexes.all (catalogue.admitsIndex image)
    && (catalogue.isComplete || image.canGrow)

/-- How many rows a table has; one that is missing has none. -/
def rowCount? (catalogue : Catalogue) (image : FileImage) (name : String) : Option Nat :=
  match catalogue.table? name with
  | none => some 0
  | some table => (image.cells? table.root).map List.length

end Catalogue

/-- How many records of each kind the store in a file has, if the file holds one or can be made to
hold one. -/
def FileImage.recordCounts? (image : FileImage) : Option RecordCounts := do
  if image.isBlank then return ⟨0, 0, 0⟩
  else if !image.hasSoundHeader then none
  else
    let catalogue ← Catalogue.ofImage? image
    if !catalogue.admitsStore image then none
    else
      return {
        entities := ← catalogue.rowCount? image "entities"
        observations := ← catalogue.rowCount? image "observations"
        relations := ← catalogue.rowCount? image "relations" }

end MemoryGraph
