-- SUMMARY: Lowercasing by the rules of Unicode, with the final form of sigma.
import MemoryGraph.Text.CaseTable

/-!
# Lower case

Lowercasing replaces each character by its lowercase counterpart, with two
characters of their own rule: a capital I with a dot becomes an i and a dot
above, and a capital sigma takes its final form at the end of a word, that is
when a letter with a case stands before it and none behind it, case-ignorable
characters being passed over on both sides.
-/
namespace MemoryGraph.Text

/-- Whether a character has a case. -/
def isCased (c : Char) : Bool := inRanges casedRanges c.toNat

/-- Whether a character is passed over when the case of a neighbour is asked for. -/
def isCaseIgnorable (c : Char) : Bool := inRanges caseIgnorableRanges c.toNat

/-- The lowercase form of a character away from its neighbours. -/
def lowerChar (c : Char) : List Char :=
  if c = 'İ' then ['i', '\u0307']
  else match lowerCode? lowerSpans c.toNat with
    | some n => [Char.ofNat n]
    | none => [c]

/-- Whether the first character that is not passed over has a case. -/
def startsCased : List Char → Bool
  | [] => false
  | c :: cs => if isCaseIgnorable c then startsCased cs else isCased c

/-- The lowercase form of a character between what stands `before` it, nearest first, and the
`rest` behind it. -/
def lowerIn (before : List Char) (c : Char) (rest : List Char) : List Char :=
  if c = 'Σ' then (if startsCased before && !startsCased rest then ['ς'] else ['σ'])
  else lowerChar c

/-- The lowercase form of a text that stands behind `before`, nearest first. -/
def lowerAfter (before : List Char) : List Char → List Char
  | [] => []
  | c :: rest => lowerIn before c rest ++ lowerAfter (c :: before) rest

/-- The lowercase form of a text. -/
def lowerChars (cs : List Char) : List Char := lowerAfter [] cs

/-- The lowercase form of a text. -/
def lower (s : String) : String := String.ofList (lowerChars s.toList)

/-- A text with the ASCII capitals folded to small letters, all else kept. -/
def foldAscii (s : String) : String := String.ofList (s.toList.map Char.toLower)

theorem toList_lower (s : String) : (lower s).toList = lowerChars s.toList := by
  simp [lower]

end MemoryGraph.Text
