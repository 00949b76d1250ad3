-- SUMMARY: Single-precision numbers as bit patterns: their arithmetic, order and bytes.

/-!
# Single precision

A single is its pattern of 32 bits, so that not-a-numbers keep their sign and
payload. An operand that is not a number passes through an operation, the first
of two; an operation without a result, such as infinity less infinity, gives the
negative quiet not-a-number. The order is total: negative numbers by falling
magnitude, then positive ones by rising magnitude, the not-a-numbers outermost.
-/
namespace MemoryGraph

/-- A number of 32 bits: one of sign, eight of exponent, 23 of fraction. -/
structure Single where
  bits : UInt32
  deriving DecidableEq, Repr

namespace Single

/-- The bits without the sign. -/
def magnitude (a : Single) : Nat := a.bits.toNat % 0x80000000

def isNegative (a : Single) : Bool := 0x80000000 ≤ a.bits.toNat

/-- Whether a pattern is not a number: the greatest exponent with a fraction. -/
def isNotNumber (a : Single) : Bool := 0x7f800000 < a.magnitude

def zero : Single := ⟨0⟩
def one : Single := ⟨0x3f800000⟩

/-- The result of an operation that has none. -/
def undefined : Single := ⟨0xffc00000⟩

/-- The not-a-number with the same sign and payload that raises no signal. -/
def quiet (a : Single) : Single := ⟨a.bits ||| 0x00400000⟩

def toFloat32 (a : Single) : Float32 := Float32.ofBits a.bits

/-- A computed number as its pattern. -/
def ofFloat32 (x : Float32) : Single := if x.isNaN then undefined else ⟨x.toBits⟩

/-- A single as a double, which loses nothing of a number. -/
def toFloat (a : Single) : Float := a.toFloat32.toFloat

/-- The single nearest to a double. -/
def ofFloat (x : Float) : Single := ofFloat32 x.toFloat32

/-- The single nearest to an integer of 64 bits. -/
def ofInt (n : Int) : Single :=
  let magnitude := n.natAbs.toUInt64.toFloat32
  ofFloat32 (if n < 0 then -magnitude else magnitude)

/-- An operation on two numbers; what is not a number passes through. -/
def lift (op : Float32 → Float32 → Float32) (a b : Single) : Single :=
  if a.isNotNumber then a.quiet
  else if b.isNotNumber then b.quiet
  else ofFloat32 (op a.toFloat32 b.toFloat32)

def add : Single → Single → Single := lift (· + ·)
def sub : Single → Single → Single := lift (· - ·)
def mul : Single → Single → Single := lift (· * ·)
def div : Single → Single → Single := lift (· / ·)

def sqrt (a : Single) : Single :=
  if a.isNotNumber then a.quiet else ofFloat32 a.toFloat32.sqrt

/-- Whether a pattern is one of the two zeros. -/
def isZero (a : Single) : Bool := a.magnitude == 0

/-- The place of a pattern in the total order. -/
def orderKey (a : Single) : Int :=
  if a.isNegative then -(a.magnitude : Int) - 1 else a.magnitude

/-! ## Bytes -/

/-- The four bytes of a pattern, the lowest first. -/
def toBytes (a : Single) : List UInt8 :=
  [a.bits.toUInt8, (a.bits >>> 8).toUInt8, (a.bits >>> 16).toUInt8, (a.bits >>> 24).toUInt8]

/-- The pattern of four bytes, the lowest first. -/
def ofBytes (b₀ b₁ b₂ b₃ : UInt8) : Single :=
  ⟨b₀.toUInt32 ||| (b₁.toUInt32 <<< 8) ||| (b₂.toUInt32 <<< 16) ||| (b₃.toUInt32 <<< 24)⟩

theorem ofBytes_toBytes (a : Single) :
    ofBytes a.bits.toUInt8 (a.bits >>> 8).toUInt8 (a.bits >>> 16).toUInt8 (a.bits >>> 24).toUInt8 =
      a := by
  rw [ofBytes, mk.injEq]
  apply UInt32.toBitVec_inj.1
  simp only [UInt32.toBitVec_or, UInt32.toBitVec_shiftLeft, UInt8.toBitVec_toUInt32,
    UInt32.toBitVec_toUInt8, UInt32.toBitVec_shiftRight, UInt32.toBitVec_ofNat]
  apply BitVec.eq_of_getLsbD_eq
  intro i hi
  -- Each bit stands in one of the four bytes.
  have hbyte : i < 8 ∨ (8 ≤ i ∧ i < 16) ∨ (16 ≤ i ∧ i < 24) ∨ 24 ≤ i := by omega
  simp only [BitVec.ofNat_eq_ofNat, BitVec.reduceMod, BitVec.ushiftRight_eq', BitVec.toNat_ofNat,
    Nat.reducePow, Nat.reduceMod, BitVec.shiftLeft_eq', BitVec.getLsbD_or, BitVec.getLsbD_setWidth,
    BitVec.getLsbD_shiftLeft, BitVec.getLsbD_ushiftRight]
  grind

end Single
end MemoryGraph
