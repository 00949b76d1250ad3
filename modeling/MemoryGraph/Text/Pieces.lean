-- SUMMARY: Cutting a text into pieces, its words, substrings, and lists without repetition.
import MemoryGraph.Text.Blank

/-!
# Pieces of a text

A text is cut at every character of a class; what lies between two cuts is a
piece, possibly empty. The words of a text are its non-empty pieces between
blanks.
-/
namespace MemoryGraph.Text

/-- What lies between the characters at which `isCut` cuts, empty pieces included. -/
def pieces (isCut : Char → Bool) : List Char → List (List Char)
  | [] => [[]]
  | c :: cs =>
    if isCut c then [] :: pieces isCut cs
    else match pieces isCut cs with
      | [] => [[c]]
      | p :: ps => (c :: p) :: ps

/-- The non-empty pieces of a text. -/
def fieldsAt (isCut : Char → Bool) (s : String) : List String :=
  ((pieces isCut s.toList).filter (fun p => !p.isEmpty)).map String.ofList

/-- The words of a text: its non-empty pieces between blanks. -/
def words (s : String) : List String := fieldsAt isBlank s

/-! ## Substrings -/

/-- Whether `p` stands somewhere in the text. -/
def occursIn (p : List Char) : List Char → Bool
  | [] => p.isEmpty
  | c :: cs => p.isPrefixOf (c :: cs) || occursIn p cs

/-- Whether `part` is a substring of `s`. -/
def contains (s part : String) : Bool := occursIn part.toList s.toList

/-! ## Lists without repetition -/

/-- The elements whose key did not occur before, in order. -/
def distinctBy [BEq κ] (key : α → κ) : List α → List α
  | [] => []
  | a :: rest => a :: (distinctBy key rest).filter (fun b => !(key b == key a))

/-- The first occurrences, in order. -/
def distinct [BEq α] (as : List α) : List α := distinctBy id as

theorem pieces_ne_nil (isCut : Char → Bool) (cs : List Char) : pieces isCut cs ≠ [] := by
  cases cs with
  | nil => simp [pieces]
  | cons c cs =>
    simp only [pieces]
    split
    · simp
    · split <;> simp

end MemoryGraph.Text
