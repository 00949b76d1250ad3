-- SUMMARY: Opening a store file among files that are there already.
import MemoryGraph.StoreFile.Catalogue
import MemoryGraph.StoreFile.Path

/-!
# Opening store files

Missing directories above a store file are made, which fails when a file stands
in the place of one of them. The file itself must be absent or blank or hold a
store; neither it nor one of the files that are kept beside it may be a
directory.
-/
namespace MemoryGraph

/-- A file that is there already. -/
structure PresentFile where
  path : String
  content : String
  deriving DecidableEq, Repr

namespace PresentFile

/-- Where the file lies. -/
def place (file : PresentFile) : List String := StorePath.resolve file.path

/-- Whether a place is a directory that the file lies in. -/
def liesIn (file : PresentFile) (place : List String) : Bool :=
  place.isPrefixOf file.place && place.length < file.place.length

end PresentFile

namespace StorePath

/-- What the names of the files end in that are kept beside a store file. -/
def companions : List String := ["-journal", "-wal", "-shm"]

/-- The places of the files beside the one at a place. -/
def companionPlaces (place : List String) : List (List String) :=
  match place.getLast? with
  | some name => companions.map fun ending => place.dropLast ++ [name ++ ending]
  | none => []

end StorePath

/-- How many records of each kind a store has that is opened at a path, among files that are there
already. -/
def recordCountsAt (present : List PresentFile) (path : String) :
    Except Refusal RecordCounts := do
  checkStorePath path
  let way := StorePath.directorySteps path
  if !way.all StorePath.isNameable
      || present.any (fun file => StorePath.meets file.place [] way) then
    throw (.directoryNotCreated (StorePath.directory path) "a file is in its way")
  let place := StorePath.resolve path
  if present.any (·.liesIn place) || !place.all StorePath.isNameable then
    throw (.notOpened path)
  if (StorePath.companionPlaces place).any fun other => present.any (·.liesIn other) then
    throw .notADatabase
  match present.find? (fun file => file.place = place) with
  | none => return ⟨0, 0, 0⟩
  | some file =>
    match (FileImage.ofText file.content).recordCounts? with
    | some counts => return counts
    | none => throw .notADatabase

end MemoryGraph
