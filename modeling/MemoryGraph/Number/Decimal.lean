-- SUMMARY: Decimal numbers as digits and an exponent, their bounds in double precision and their text.

/-!
# Decimal numbers

A decimal number is a natural number of digits times a power of ten, with a
sign of its own so that zero keeps its sign. Texts of data formats denote
decimals; a decimal is turned into a double only where one computes with it.
Scaling is the quick way to do so and may be off by a last bit.
-/
namespace MemoryGraph

/-- The number `± digits · 10 ^ exponent`. -/
structure Decimal where
  negative : Bool
  digits : Nat
  exponent : Int
  deriving DecidableEq, Repr

namespace Decimal

/-- How many decimal digits a natural number is written with. -/
def width (n : Nat) : Nat := (Nat.toDigits 10 n).length

/-- The least magnitude that rounds to infinity in double precision. -/
def doubleBound : Nat := Nat.pow 2 1024 - Nat.pow 2 970

/-- Whether a decimal is too large for double precision. The two first tests keep the powers of
ten small. -/
def exceedsDouble (d : Decimal) : Bool :=
  if d.digits = 0 then false
  else
    let top := d.exponent + width d.digits
    if top ≤ 308 then false
    else if 310 < top then true
    else if 0 ≤ d.exponent then doubleBound ≤ d.digits * Nat.pow 10 d.exponent.toNat
    else doubleBound * Nat.pow 10 (-d.exponent).toNat ≤ d.digits

/-- The double of a power of ten up to `10 ^ 308`. -/
def powerOfTen (n : Nat) : Float := Float.ofScientific 1 false n

/-- The double that scaling the digits gives, which need not be the nearest: they are multiplied or
divided by a power of ten once, twice where the power is beyond double precision. The digits fit 64
bits. There is none when the product is infinite. -/
def scaled? (d : Decimal) : Option Float :=
  let digits := d.digits.toUInt64.toFloat
  let magnitude : Option Float :=
    if d.digits = 0 ∨ d.exponent < -616 then some 0
    else if d.exponent < -308 then
      some (digits / powerOfTen 308 / powerOfTen (-d.exponent - 308).toNat)
    else if d.exponent < 0 then some (digits / powerOfTen (-d.exponent).toNat)
    else if d.exponent ≤ 308 then
      let product := digits * powerOfTen d.exponent.toNat
      if product.isInf then none else some product
    else none
  magnitude.map fun x => if d.negative then -x else x

/-- The same number with no zero at the end of its digits. -/
def normalize (negative : Bool) (digits : Nat) (exponent : Int) : Decimal :=
  if h : digits ≠ 0 ∧ digits % 10 = 0 then normalize negative (digits / 10) (exponent + 1)
  else ⟨negative, digits, if digits = 0 then 0 else exponent⟩
termination_by digits
decreasing_by omega

/-- The text of a decimal in a document: positional from 10^-5 up to 10^16, with a point always, and
in powers of ten outside. -/
def text (d : Decimal) : String :=
  let sign := if d.negative then "-" else ""
  let ds := Nat.toDigits 10 d.digits
  let count : Int := ds.length
  let point := count + d.exponent
  let zeros (n : Int) := String.ofList (List.replicate n.toNat '0')
  let all := String.ofList ds
  let body :=
    if d.digits = 0 then "0.0"
    else if 0 ≤ d.exponent ∧ point ≤ 16 then all ++ zeros d.exponent ++ ".0"
    else if 0 < point ∧ point ≤ 16 then
      String.ofList (ds.take point.toNat) ++ "." ++ String.ofList (ds.drop point.toNat)
    else if -5 < point ∧ point ≤ 0 then "0." ++ zeros (-point) ++ all
    else
      let lead := String.ofList (ds.take 1)
      let rest := ds.drop 1
      let behind := if rest.isEmpty then "" else "." ++ String.ofList rest
      lead ++ behind ++ "e" ++ toString (point - 1)
  sign ++ body

end Decimal
end MemoryGraph
