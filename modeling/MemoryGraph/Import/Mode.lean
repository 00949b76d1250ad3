-- SUMMARY: The two ways in which an import treats nodes that fail.
import MemoryGraph.Text.Blank

/-!
# Import modes

An import either keeps what succeeded or, as soon as one node fails, nothing at
all. A mode is named leniently: blanks around it, capitals of ASCII and dashes
for underscores make no difference.
-/
namespace MemoryGraph

open Text

/-- How an import treats nodes that fail. -/
inductive ImportMode where
  /-- Keep every node that succeeded. -/
  | bestEffort
  /-- Keep nothing when a node failed. -/
  | atomic
  deriving DecidableEq, Repr

/-- A name that no mode has, with its capitals and dashes folded. -/
structure UnknownMode where
  name : String
  deriving DecidableEq, Repr

def UnknownMode.message (unknown : UnknownMode) : String := s!"Unknown import mode '{unknown.name}'"

namespace ImportMode

def label : ImportMode → String
  | .bestEffort => "best_effort"
  | .atomic => "atomic"

/-- The mode of exactly this name. -/
def ofLabel? (name : String) : Option ImportMode :=
  if name = label .bestEffort then some .bestEffort
  else if name = label .atomic then some .atomic
  else none

/-- A name with its capitals and dashes folded. -/
def fold (text : String) : String :=
  String.ofList ((trimChars text.toList).map fun c => if c = '-' then '_' else c.toLower)

/-- The mode that a text names. -/
def parse (text : String) : Except UnknownMode ImportMode :=
  match ofLabel? (fold text) with
  | some mode => .ok mode
  | none => .error ⟨fold text⟩

end ImportMode
end MemoryGraph
