-- SUMMARY: The rows of a store file and the values in them.
import MemoryGraph.StoreFile.Image

/-!
# Rows

A cell holds the length of its row, a number of the row, and the row: first a
header with the kind of each value, then the values. A row is read as far as its
values are asked for; values that it does not have are null. It lies in its page
as a whole; one that goes on elsewhere is not read.
-/
namespace MemoryGraph.FileImage

/-- A value of a row. -/
inductive Value where
  | null
  | integer (n : Int)
  | fraction
  | bytes (bs : List Nat)
  deriving DecidableEq, Repr

/-- How many bytes a value of a kind takes. -/
def widthOfKind (kind : Nat) : Nat :=
  if kind < 5 then kind
  else if kind = 5 then 6
  else if kind < 8 then 8
  else if kind < 12 then 0
  else (kind - 12) / 2

/-- The integer in `count` bytes, of which the first carries the sign. -/
def signedNumber (image : FileImage) (place count : Nat) : Int :=
  let n := image.number place count
  if image.byte place < 128 then n else (n : Int) - Nat.pow 256 count

/-- The value of a kind at a place. -/
def valueAt (image : FileImage) (kind place : Nat) : Value :=
  if kind = 0 ∨ kind = 10 ∨ kind = 11 then .null
  else if kind < 7 then .integer (image.signedNumber place (widthOfKind kind))
  else if kind = 7 then .fraction
  else if kind = 8 then .integer 0
  else if kind = 9 then .integer 1
  else .bytes ((List.range (widthOfKind kind)).map fun i => image.byte (place + i))

/-- Up to `count` values, whose kinds stand from `place` and which themselves stand from `data`.
What was read must not go beyond the header nor beyond the row, and must fill both when it reaches
the end of the header. -/
def values? (image : FileImage) (headerEnd rowEnd : Nat) : Nat → Nat → Nat → Option (List Value)
  | count, place, data =>
    if headerEnd ≤ place then if place = headerEnd ∧ data = rowEnd then some [] else none
    else match count with
      | 0 => if data ≤ rowEnd then some [] else none
      | count + 1 => do
        let (kind, next) := image.packed place
        let rest ← image.values? headerEnd rowEnd count next (data + widthOfKind kind)
        return image.valueAt kind data :: rest

/-- The first `count` values of the row in a cell. -/
def row? (image : FileImage) (count cell : Nat) : Option (List Value) :=
  let (size, rest) := image.packed cell
  let (_, start) := image.packed rest
  let pageEnd := cell / image.pageSize * image.pageSize + image.usableSize
  let (headerSize, kinds) := image.packed start
  if pageEnd < start + size ∨ image.usableSize - 35 < size then none
  else if headerSize = 0 then some []
  else if size < headerSize ∨ headerSize ≤ kinds - start then none
  else image.values? (start + headerSize) (start + size) count kinds (start + headerSize)

end MemoryGraph.FileImage
