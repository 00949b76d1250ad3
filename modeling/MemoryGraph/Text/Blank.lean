-- SUMMARY: The blank characters, trimming, and the test for a text with nothing but blanks.

/-!
# Blank text

A character is blank when it has the Unicode property White_Space. Trimming
drops the blanks at both ends of a text, and a text is blank when trimming
leaves nothing.
-/
namespace MemoryGraph.Text

/-- The characters with the Unicode property White_Space, in order of code point. -/
def blanks : List Char :=
  ['\u0009', '\u000a', '\u000b', '\u000c', '\u000d', '\u0020', '\u0085', '\u00a0', '\u1680',
   '\u2000', '\u2001', '\u2002', '\u2003', '\u2004', '\u2005', '\u2006', '\u2007', '\u2008',
   '\u2009', '\u200a', '\u2028', '\u2029', '\u202f', '\u205f', '\u3000']

/-- Whether a character separates words. -/
def isBlank (c : Char) : Bool := blanks.contains c

/-- A text without the blanks at its two ends. -/
def trimChars (cs : List Char) : List Char :=
  ((cs.dropWhile isBlank).reverse.dropWhile isBlank).reverse

/-- A text without the blanks at its two ends. -/
def trim (s : String) : String := String.ofList (trimChars s.toList)

/-- Whether a text holds nothing but blanks. -/
def allBlank (s : String) : Bool := s.toList.all isBlank

/-- A trimmed text, or nothing when only blanks were given. -/
def nonBlank? (s : Option String) : Option String :=
  match s with
  | none => none
  | some text => if allBlank text then none else some (trim text)

/-- The control characters of Unicode: the two blocks of codes C0 and C1, and DEL. -/
def isControl (c : Char) : Bool := c.toNat < 0x20 || (0x7f ≤ c.toNat && c.toNat ≤ 0x9f)

@[simp] theorem nonBlank?_none : nonBlank? none = none := rfl

theorem toList_trim (s : String) : (trim s).toList = trimChars s.toList := by
  simp [trim]

end MemoryGraph.Text
