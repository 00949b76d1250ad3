-- SUMMARY: The checks that names, types and observations pass before they are stored.
import MemoryGraph.Record.Refusal

/-!
# Validation

A name or type must hold more than blanks, must not be longer than its limit and
must hold no control character; an observation may hold control characters other
than NUL. All three are checked as they are given, before trimming.
-/
namespace MemoryGraph

open Text

/-- The characters that a text may not hold. -/
def Field.forbids (field : Field) (c : Char) : Bool :=
  match field with
  | .observation => c = '\u0000'
  | _ => isControl c

/-- The first thing that is wrong with a text. -/
def Field.fault? (field : Field) (text : String) : Option FieldFault :=
  if allBlank text then some .blank
  else if field.maxLength < text.length then some .tooLong
  else if text.toList.any field.forbids then some .forbiddenCharacter
  else none

/-- Refuse a text with a fault. -/
def Field.validate (field : Field) (text : String) : Except Refusal Unit :=
  match field.fault? text with
  | some fault => .error (.invalidField field fault)
  | none => .ok ()

theorem Field.validate_eq_ok {field : Field} {text : String} :
    field.validate text = .ok () ↔ field.fault? text = none := by
  unfold Field.validate
  split <;> simp_all

end MemoryGraph
