-- SUMMARY: The cosine distance of two vectors in single precision.
import MemoryGraph.Embedding.Blob

/-!
# Cosine distance

The distance of two vectors is one less the cosine of the angle between them.
Every step is rounded to single precision, and sums are formed from the left.
Vectors of different or no length, and vectors without direction, have none.
-/
namespace MemoryGraph.Embedding

/-- The sum of numbers from the left. -/
def sum (v : Embedding) : Single := v.foldl Single.add Single.zero

/-- The inner product. -/
def dot (a b : Embedding) : Single := sum (List.zipWith Single.mul a b)

/-- The length of a vector in space. -/
def norm (v : Embedding) : Single := (dot v v).sqrt

/-- The cosine distance, when there is one. -/
def distance? (a b : Embedding) : Option Single :=
  if a.length ≠ b.length ∨ a.isEmpty then none
  else if (norm a).isZero ∨ (norm b).isZero then none
  else some (Single.one.sub ((dot a b).div ((norm a).mul (norm b))))

end MemoryGraph.Embedding
