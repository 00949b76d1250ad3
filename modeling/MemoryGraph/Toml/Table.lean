-- SUMMARY: TOML values, and building the table of a document from its statements.

/-!
# TOML tables

A document is a list of statements: pairs of a key and a value, and headers that
open a table or a further table of an array. The rules that keep a table from
being defined twice look at where it came from: a header defines a table once,
the path of a deeper header only implies it, and dotted keys build tables that
no header may open. Values, inline tables included, are never extended.
-/
namespace MemoryGraph

/-- A TOML value. Floats and moments are kept as the texts of their usual form. -/
inductive Toml where
  | string (s : String)
  | integer (n : Int)
  | float (text : String)
  | boolean (b : Bool)
  | moment (text : String)
  | array (items : List Toml)
  | table (entries : List (String × Toml))
  deriving Repr, BEq

namespace Toml

/-- Where a table of a document came from. -/
inductive Origin where
  /-- Opened by a header. -/
  | header
  /-- On the path of a header. -/
  | implied
  /-- On the path of a dotted key. -/
  | dotted
  deriving DecidableEq, Repr

/-- What stands under a key while a document is read. -/
inductive Node where
  | value (v : Toml)
  | table (origin : Origin) (entries : List (String × Node))
  /-- An array of tables, the last first. -/
  | tables (items : List (List (String × Node)))
  deriving Repr

/-- The entries of a table. -/
abbrev Entries := List (String × Node)

/-- Put a node under a key: in the place of the one that was there, or else at the end. -/
def Entries.set (key : String) (node : Node) : Entries → Entries
  | [] => [(key, node)]
  | entry :: rest =>
    if entry.1 = key then (key, node) :: rest else entry :: Entries.set key node rest

/-- The entries without a key. -/
def Entries.without (entries : Entries) (key : String) : Entries :=
  entries.filter (fun entry => entry.1 ≠ key)

/-- Change the table at the end of a path; tables that are not there yet come into being with
`origin`. A dotted path enters no table that a header opened. -/
def Entries.descend (origin : Origin) (change : Origin → Entries → Option Entries) :
    Origin → List String → Entries → Option Entries
  | here, [], entries => change here entries
  | _, key :: path, entries =>
    match List.lookup key entries with
    | none => do
      return entries.set key (.table origin (← Entries.descend origin change origin path []))
    | some (.value _) => none
    | some (.table there inner) =>
      if origin = .dotted ∧ there = .header then none
      else do
        return entries.set key (.table there (← Entries.descend origin change there path inner))
    | some (.tables []) => none
    | some (.tables (last :: others)) => do
      let last ← Entries.descend origin change .header path last
      return entries.set key (.tables (last :: others))

/-- Add a pair below a table: the last part of its key must be new, and the parts before it must
lead to a table of dotted keys. -/
def Entries.addPair (path : List String) (key : String) (v : Toml) (entries : Entries) :
    Option Entries :=
  Entries.descend .dotted
    (fun here inner =>
      if (here = .dotted) = path.isEmpty then none
      else if (List.lookup key inner).isSome then none
      else some (inner ++ [(key, .value v)]))
    .header path entries

/-- A statement of a document. -/
inductive Statement where
  | pair (path : List String) (key : String) (v : Toml)
  | header (path : List String) (key : String)
  | arrayHeader (path : List String) (key : String)
  deriving Repr

/-- A document on its way: all entries, and the path of the table that pairs go into. -/
structure Building where
  root : Entries := []
  current : List String := []

/-- Take in a statement. -/
def Building.add (building : Building) : Statement → Option Building
  | .pair path key v => do
    let root ← Entries.descend .implied (fun _ entries => entries.addPair path key v) .header
      building.current building.root
    return { building with root }
  | .header path key => do
    let root ← Entries.descend .implied
      (fun _ entries =>
        match List.lookup key entries with
        | none => some (entries.set key (.table .header []))
        | some (.table .implied inner) =>
          some ((entries.without key).set key (.table .header inner))
        | some _ => none)
      .header path building.root
    return { root, current := path ++ [key] }
  | .arrayHeader path key => do
    let root ← Entries.descend .implied
      (fun _ entries =>
        match List.lookup key entries with
        | none => some (entries.set key (.tables [[]]))
        | some (.tables items) => some (entries.set key (.tables ([] :: items)))
        | some _ => none)
      .header path building.root
    return { root, current := path ++ [key] }

mutual
/-- The value of what stands under a key. -/
def Node.toToml : Node → Toml
  | .value v => v
  | .table _ entries => .table (entriesToToml entries)
  | .tables items => .array (tablesToToml items).reverse
termination_by structural node => node
def entriesToToml : List (String × Node) → List (String × Toml)
  | [] => []
  | (key, node) :: rest => (key, node.toToml) :: entriesToToml rest
termination_by structural entries => entries
def tablesToToml : List (List (String × Node)) → List Toml
  | [] => []
  | entries :: rest => .table (entriesToToml entries) :: tablesToToml rest
termination_by structural tables => tables
end

/-- The table that pairs build, as in an inline table. -/
def tableOfPairs? (pairs : List (List String × String × Toml)) : Option Toml := do
  let add (entries : Entries) : List String × String × Toml → Option Entries
    | (path, key, v) => entries.addPair path key v
  let entries ← pairs.foldlM add []
  return .table (entriesToToml entries)

/-- The entries of a document. -/
def tableOfStatements? (statements : List Statement) : Option (List (String × Toml)) := do
  let building ← statements.foldlM Building.add {}
  return entriesToToml building.root

end Toml
end MemoryGraph
