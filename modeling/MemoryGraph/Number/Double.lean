-- SUMMARY: Doubles as exact binary numbers: the shortest decimal that reads back, and fixed places.
import MemoryGraph.Number.Decimal

/-!
# Doubles as texts

A finite double is a natural mantissa times a power of two. Its shortest decimal
is the one of fewest digits that rounds back to it, and of those the nearest;
with fixed places it is rounded to the nearest multiple of a power of ten, a
half going to the even neighbour. Both are computed with natural numbers.
-/
namespace MemoryGraph.Double

/-- The magnitude `mantissa · 2 ^ exponent` of a finite double. `narrow` says that the gap below is
half the gap above. -/
structure Magnitude where
  mantissa : Nat
  exponent : Int
  narrow : Bool
  deriving DecidableEq, Repr

/-- The parts of a finite double. -/
def magnitude (x : Float) : Magnitude :=
  let bits := x.toBits.toNat
  let fraction : Nat := bits % Nat.pow 2 52
  let biased : Nat := bits / Nat.pow 2 52 % Nat.pow 2 11
  if biased = 0 then ⟨fraction, -1074, false⟩
  else ⟨fraction + Nat.pow 2 52, (biased : Int) - 1075, fraction == 0 && 1 < biased⟩

/-- Whether the sign bit of a double is set. -/
def isNegative (x : Float) : Bool := x.toBits.toNat / Nat.pow 2 63 == 1

/-- A fraction of natural numbers that equals `n · 2 ^ two · 10 ^ ten`. -/
def scaled (n : Nat) (two ten : Int) : Nat × Nat :=
  (n * Nat.pow 2 two.toNat * Nat.pow 10 ten.toNat, Nat.pow 2 (-two).toNat * Nat.pow 10 (-ten).toNat)

/-- The place of the first digit of a positive magnitude, or one below it. -/
def topPlace (m : Magnitude) : Int :=
  let (num, den) := scaled m.mantissa m.exponent 0
  if den ≤ num then (Decimal.width (num / den) : Int) - 1
  else -(Decimal.width (den / num) : Int)

/-- Whether `c · 10 ^ place` rounds to the magnitude. In units of a quarter of its last bit the
magnitude is four mantissas, and the numbers that round to it end two units away, one unit on a
narrow side; an even mantissa takes in both ends. -/
def roundsBack (m : Magnitude) (place : Int) (c : Nat) : Bool :=
  let (num, den) := scaled c (2 - m.exponent) place
  let low := (4 * m.mantissa - (if m.narrow then 1 else 2)) * den
  let high := (4 * m.mantissa + 2) * den
  if m.mantissa % 2 = 0 then low ≤ num && num ≤ high else low < num && num < high

/-- The multiple of `10 ^ place` nearest to a magnitude among the two beside it that round to it,
if one does. -/
def nearestAt (m : Magnitude) (place : Int) : Option Nat :=
  let (num, den) := scaled m.mantissa m.exponent (-place)
  let below := num / den
  let remainder := 2 * (num % den)
  match roundsBack m place below, roundsBack m place (below + 1) with
  | true, true =>
    if remainder < den ∨ (remainder = den ∧ below % 2 = 0) then some below else some (below + 1)
  | true, false => some below
  | false, true => some (below + 1)
  | false, false => none

/-- The decimal of fewest digits that rounds to a finite double, the nearest of them. Eighteen
places from the first digit always suffice. -/
def shortest (x : Float) : Decimal :=
  let m := magnitude x
  if m.mantissa = 0 then ⟨isNegative x, 0, 0⟩
  else
    let top := topPlace m
    let hit := (List.range 19).findSome? fun (i : Nat) =>
      let place := top - (i : Int)
      (nearestAt m place).map fun c => (c, place)
    match hit with
    | some (c, place) => Decimal.normalize (isNegative x) c place
    | none => ⟨isNegative x, 0, 0⟩

/-- A quotient rounded to the nearest natural number, a half to the even one. -/
def roundHalfEven (num den : Nat) : Nat :=
  let below := num / den
  let remainder := 2 * (num % den)
  if remainder < den ∨ (remainder = den ∧ below % 2 = 0) then below else below + 1

/-- A finite double with a given number of places behind the point. -/
def fixed (places : Nat) (x : Float) : String :=
  let m := magnitude x
  let (num, den) := scaled m.mantissa m.exponent (places : Int)
  let units := roundHalfEven num den
  let behind := Nat.toDigits 10 (units % Nat.pow 10 places)
  let pad := List.replicate (places - behind.length) '0'
  let point := if places = 0 then "" else "." ++ String.ofList (pad ++ behind)
  (if isNegative x then "-" else "") ++ toString (units / Nat.pow 10 places) ++ point

end MemoryGraph.Double
