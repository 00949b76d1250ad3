-- SUMMARY: The paths of store files: their names, directories and where they lead.
import MemoryGraph.Record.Refusal
import MemoryGraph.Text.Pieces

/-!
# Store paths

A store is kept in a file whose name ends in `.db`. Paths are read step by step;
a step may lead nowhere or upwards, and only the last one that leads somewhere
names the file.
-/
namespace MemoryGraph

open Text

namespace StorePath

/-- The steps of a path: what stands between its slashes. -/
def steps (path : String) : List String := (pieces (· = '/') path.toList).map String.ofList

/-- Whether a step leads nowhere. -/
def isIdle (step : String) : Bool := step = "" || step = "."

/-- Steps without the idle ones at their end. -/
def dropIdleEnd (steps : List String) : List String := (steps.reverse.dropWhile isIdle).reverse

/-- The last step that leads somewhere, unless it leads upwards. -/
def fileName? (path : String) : Option String :=
  (dropIdleEnd (steps path)).getLast?.filter (fun step => step ≠ "..")

/-- The steps to the directory that a path lies in. -/
def directorySteps (path : String) : List String :=
  dropIdleEnd (dropIdleEnd (steps path)).dropLast

/-- The directory that a path lies in. -/
def directory (path : String) : String := "/".intercalate (directorySteps path)

/-- What stands behind the last point of a name. A point at its start does not count. -/
def extension? (name : String) : Option String :=
  let backwards := name.toList.reverse
  match backwards.dropWhile (· ≠ '.') with
  | _ :: _ :: _ => some (String.ofList (backwards.takeWhile (· ≠ '.')).reverse)
  | _ => none

/-- Where a step leads from a place. -/
def advance (place : List String) (step : String) : List String :=
  if isIdle step then place else if step = ".." then place.dropLast else place ++ [step]

/-- Where a path leads. -/
def resolve (path : String) : List String := (steps path).foldl advance []

/-- Whether the way from a place along steps meets another place. -/
def meets (goal place : List String) : List String → Bool
  | [] => false
  | step :: rest => advance place step = goal || meets goal (advance place step) rest

end StorePath

/-- The extension of the files that stores are kept in. -/
def storeExtension : String := "db"

/-- Whether the name of a file is fit for a store. -/
def checkStorePath (path : String) : Except Refusal Unit :=
  match (StorePath.fileName? path).bind StorePath.extension? with
  | none => .error (.databasePath .noExtension)
  | some extension =>
    if extension = storeExtension then .ok () else .error (.databasePath .otherExtension)

/-- Whether a step can be the name of a file or directory. -/
def StorePath.isNameable (step : String) : Bool :=
  step.utf8ByteSize ≤ 255 && !step.toList.contains '\x00'

end MemoryGraph
