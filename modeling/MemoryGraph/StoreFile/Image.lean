-- SUMMARY: The bytes of a store file: its header, its pages and the cells of its trees.

/-!
# File images

A store file is cut into pages of one size, which its header names in the first
hundred bytes of page 1. Rows are kept in trees of pages: a leaf lists cells with
a row each, a branch lists the pages below it. A tree is at most twenty pages
high, and only the root of a tree may be empty.
-/
namespace MemoryGraph

/-- The bytes of a file. Zeros stand behind their end. -/
structure FileImage where
  bytes : ByteArray

namespace FileImage

/-- The image of a file that holds a text. -/
def ofText (text : String) : FileImage := ⟨text.toUTF8⟩

/-- Whether a file is as good as empty: a single byte does not count. -/
def isBlank (image : FileImage) : Bool := image.bytes.size ≤ 1

/-! ## Numbers -/

/-- The byte at a place. -/
def byte (image : FileImage) (place : Nat) : Nat :=
  if h : place < image.bytes.size then image.bytes[place].toNat else 0

/-- The number in `count` bytes, the highest first. -/
def number (image : FileImage) (place count : Nat) : Nat :=
  (List.range count).foldl (fun n i => n * 256 + image.byte (place + i)) 0

/-- A number of variable length behind the part `high` of it, and the place behind the number. Each
byte brings seven bits and says whether another follows; after `left` of them one brings eight. -/
def packedFrom (image : FileImage) (high : Nat) : Nat → Nat → Nat × Nat
  | 0, place => (high * 256 + image.byte place, place + 1)
  | left + 1, place =>
    let b := image.byte place
    if b < 128 then (high * 128 + b, place + 1)
    else image.packedFrom (high * 128 + (b - 128)) left (place + 1)

/-- The number of variable length at a place, and the place behind it. -/
def packed (image : FileImage) (place : Nat) : Nat × Nat := image.packedFrom 0 8 place

/-! ## The header -/

/-- What the files begin with. -/
def magic : String := "SQLite format 3\x00"

/-- How many bytes a page has. -/
def pageSize (image : FileImage) : Nat := image.byte 16 * 256 + image.byte 17 * 65536

/-- How many bytes of a page are used. -/
def usableSize (image : FileImage) : Nat := image.pageSize - image.byte 20

/-- How many pages the bytes make up; the last one may be cut short. -/
def pagesPresent (image : FileImage) : Nat :=
  (image.bytes.size + image.pageSize - 1) / image.pageSize

/-- How many pages the file has. The header says so, unless an older program wrote behind its
back. -/
def pageCount (image : FileImage) : Nat :=
  let declared := image.number 28 4
  if declared = 0 ∨ image.number 24 4 ≠ image.number 92 4 then image.pagesPresent else declared

/-- Whether pages that are no longer used are well listed so that they can be taken again. -/
def hasUsableFreeList (image : FileImage) : Bool :=
  let free := image.number 36 4
  free = 0 || (free < image.pageCount && image.number 32 4 ≤ image.pageCount)

/-- Whether the root that was made last, which is named when pages can move, is a page. -/
def hasUsableLastRoot (image : FileImage) : Bool := image.number 52 4 ≤ image.pageCount

/-- Whether the header is one of a file that can be read and written. -/
def hasSoundHeader (image : FileImage) : Bool :=
  (List.range 16).map image.byte = magic.toList.map Char.toNat
    && image.byte 18 ≤ 2 && image.byte 19 ≤ 2
    && image.byte 21 = 64 && image.byte 22 = 32 && image.byte 23 = 32
    && [512, 1024, 2048, 4096, 8192, 16384, 32768, 65536].contains image.pageSize
    && 480 ≤ image.usableSize
    && image.pageCount ≤ image.pagesPresent
    && image.byte 47 ≤ 4

/-! ## Pages -/

/-- A page of a tree that holds rows. -/
structure Page where
  isLeaf : Bool
  /-- The places of the cells in the file. -/
  cells : List Nat
  /-- The page below a branch that comes behind those of its cells. -/
  lastChild : Nat
  deriving Repr

/-- The page of a number, if it is one that holds rows or stands above such pages. -/
def page? (image : FileImage) (n : Nat) : Option Page :=
  let start := (n - 1) * image.pageSize
  let header := if n = 1 then start + 100 else start
  let kind := image.byte header
  let count := image.number (header + 3) 2
  let cellsFrom (list : Nat) : List Nat :=
    (List.range count).map fun i => start + image.number (list + 2 * i) 2 % image.pageSize
  if n = 0 ∨ image.pageCount < n ∨ (image.pageSize - 8) / 6 < count then none
  else if kind = 13 then some ⟨true, cellsFrom (header + 8), 0⟩
  else if kind = 5 then some ⟨false, cellsFrom (header + 12), image.number (header + 8) 4⟩
  else none

/-- The cells with the rows of a tree of a given height at most, in their order. -/
def cellsBelow? (image : FileImage) : Nat → Bool → Nat → Option (List Nat)
  | 0, _, _ => none
  | height + 1, isRoot, n => do
    let page ← image.page? n
    if page.isLeaf then
      if page.cells.isEmpty && !isRoot then none else some page.cells
    else if page.cells.isEmpty && !(isRoot && n = 1) then none
    else
      let children := page.cells.map (fun cell => image.number cell 4) ++ [page.lastChild]
      return (← children.mapM (image.cellsBelow? height false)).flatten

/-- How many pages a tree is high at most. -/
def heightLimit : Nat := 20

/-- The cells with the rows of the tree under a root. -/
def cells? (image : FileImage) (root : Nat) : Option (List Nat) :=
  image.cellsBelow? heightLimit true root

/-! ## Room for further rows -/

/-- How much of a page is free by the list of its gaps from a place on, beside what `free` counts
already. Gaps ascend with room between them and lie in the page; `left` bounds their number. -/
def gaps? (image : FileImage) (start free : Nat) : Nat → Nat → Option Nat
  | 0, _ => none
  | left + 1, gap =>
    let next := image.number (start + gap) 2
    let size := image.number (start + gap + 2) 2
    if image.usableSize - 4 < gap then none
    else if gap + size + 3 < next then image.gaps? start (free + size) left next
    else if next ≠ 0 ∨ image.usableSize < gap + size then none
    else some (free + size)

/-- Whether the room in a page adds up: the cells begin behind the list of their places, and what
is free fits the page. -/
def hasSoundRoom (image : FileImage) (n : Nat) : Bool :=
  let start := (n - 1) * image.pageSize
  let inPage := if n = 1 then 100 else 0
  let header := start + inPage
  let first := image.number (header + 1) 2
  let declared := image.number (header + 5) 2
  let top := if declared = 0 then 65536 else declared
  let free := image.byte (header + 7) + top
  let all :=
    if first = 0 then some free
    else if first < top then none
    else image.gaps? start free image.pageSize first
  let listEnd := inPage + 8 + 2 * image.number (header + 3) 2
  all.any fun free => listEnd ≤ free && free ≤ image.usableSize

/-- The last leaf of a tree of a given height at most. -/
def lastLeaf? (image : FileImage) : Nat → Nat → Option Nat
  | 0, _ => none
  | height + 1, n => do
    let page ← image.page? n
    if page.isLeaf then return n else image.lastLeaf? height page.lastChild

/-- Whether tables and indexes can be added. -/
def canGrow (image : FileImage) : Bool :=
  image.hasUsableFreeList && image.hasUsableLastRoot
    && (image.lastLeaf? heightLimit 1).any image.hasSoundRoom

end FileImage
end MemoryGraph
