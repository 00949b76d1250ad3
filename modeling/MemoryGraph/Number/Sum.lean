-- SUMMARY: Sums of natural numbers over lists.

/-!
# Sums

A sum adds up a natural number for each element of a list.
-/
namespace MemoryGraph

/-- The sum of `f a` over the elements `a` of a list. -/
def sumOf (f : α → Nat) : List α → Nat
  | [] => 0
  | a :: rest => f a + sumOf f rest

@[simp] theorem sumOf_nil (f : α → Nat) : sumOf f [] = 0 := rfl

@[simp] theorem sumOf_cons (f : α → Nat) (a : α) (rest : List α) :
    sumOf f (a :: rest) = f a + sumOf f rest := rfl

end MemoryGraph
