-- SUMMARY: Vectors of single-precision numbers and the bytes they are stored as.
import MemoryGraph.Record.Basic

/-!
# Vectors as bytes

A vector is stored as the four bytes of each of its numbers, the lowest byte
first. Bytes at the end that do not fill a number are passed over.
-/
namespace MemoryGraph

/-- The vector that stands for a text. -/
abbrev Embedding := List Single

/-- The bytes of a vector. -/
def Embedding.toBlob (v : Embedding) : Blob := v.flatMap Single.toBytes

/-- The vector of bytes. -/
def Embedding.ofBlob : Blob → Embedding
  | b₀ :: b₁ :: b₂ :: b₃ :: rest => Single.ofBytes b₀ b₁ b₂ b₃ :: ofBlob rest
  | _ => []

@[simp] theorem Embedding.toBlob_cons (a : Single) (v : Embedding) :
    toBlob (a :: v) = a.toBytes ++ v.toBlob :=
  List.flatMap_cons

/-- A vector is read back from its bytes, bit by bit. -/
theorem Embedding.ofBlob_toBlob (v : Embedding) : ofBlob v.toBlob = v := by
  induction v with
  | nil => rfl
  | cons a rest ih =>
    rw [toBlob_cons]
    simp only [Single.toBytes, List.cons_append, List.nil_append, ofBlob, ih,
      Single.ofBytes_toBytes]

end MemoryGraph
