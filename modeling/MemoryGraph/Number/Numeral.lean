-- SUMMARY: Reading decimal numerals into bounded integers, with the cause when a text is none.

/-!
# Decimal numerals

A numeral is an optional sign and at least one ASCII digit. It is read from the
left into an integer of a given range, and the first thing that goes wrong
decides: a character that is no digit, or a digit that carries the number out of
the range. A range without negative numbers admits no minus sign.
-/
namespace MemoryGraph

/-- The integers from `least` to `greatest`. -/
structure IntegerRange where
  least : Int
  greatest : Int
  deriving DecidableEq, Repr

/-- The integers of 64 bits with a sign. -/
def IntegerRange.signed64 : IntegerRange := ⟨-0x8000000000000000, 0x7fffffffffffffff⟩

/-- The integers of 64 bits without a sign. -/
def IntegerRange.unsigned64 : IntegerRange := ⟨0, 0xffffffffffffffff⟩

/-- Whether a range holds an integer. -/
def IntegerRange.holds (range : IntegerRange) (n : Int) : Bool :=
  range.least ≤ n && n ≤ range.greatest

/-- Why a text is no numeral of a range. -/
inductive NumeralError where
  | empty
  | invalidDigit
  | tooLarge
  | tooSmall
  deriving DecidableEq, Repr

def NumeralError.message : NumeralError → String
  | .empty => "cannot parse integer from empty string"
  | .invalidDigit => "invalid digit found in string"
  | .tooLarge => "number too large to fit in target type"
  | .tooSmall => "number too small to fit in target type"

/-- The value of an ASCII digit. -/
def digitValue? (c : Char) : Option Nat :=
  if '0' ≤ c ∧ c ≤ '9' then some (c.toNat - '0'.toNat) else none

/-- The number that `acc` and the digits behind it spell, refused as `beyond` at the first digit
that carries it over `limit`. -/
def readDigits (limit : Nat) (beyond : NumeralError) (acc : Nat) :
    List Char → Except NumeralError Nat
  | [] => .ok acc
  | c :: cs =>
    match digitValue? c with
    | none => .error .invalidDigit
    | some d =>
      if acc * 10 + d ≤ limit then readDigits limit beyond (acc * 10 + d) cs else .error beyond

/-- The integer of a range that a text denotes. -/
def readNumeralChars (range : IntegerRange) : List Char → Except NumeralError Int
  | [] => .error .empty
  | ['+'] => .error .invalidDigit
  | ['-'] => .error .invalidDigit
  | '+' :: ds => (readDigits range.greatest.toNat .tooLarge 0 ds).map Int.ofNat
  | '-' :: ds =>
    if range.least < 0 then
      (readDigits (-range.least).toNat .tooSmall 0 ds).map (fun n => -(n : Int))
    else .error .invalidDigit
  | ds => (readDigits range.greatest.toNat .tooLarge 0 ds).map Int.ofNat

/-- The integer of a range that a text denotes. -/
def readNumeral (range : IntegerRange) (s : String) : Except NumeralError Int :=
  readNumeralChars range s.toList

end MemoryGraph
