/-
  Sets of characters given by ranges of code points.

  A table of a Unicode property is a list of closed ranges, in ascending order;
  `covers` tells whether a code point lies in one of them.
-/

namespace VectorStore.Text

/-- Closed ranges of code points. -/
abbrev Ranges := List (Nat × Nat)

/-- Whether `n` lies in one of the ranges. -/
def Ranges.covers (ranges : Ranges) (n : Nat) : Bool :=
  ranges.any fun r => r.1 ≤ n && n ≤ r.2

theorem Ranges.covers_iff {ranges : Ranges} {n : Nat} :
    ranges.covers n = true ↔ ∃ r ∈ ranges, r.1 ≤ n ∧ n ≤ r.2 := by
  simp [Ranges.covers]

end VectorStore.Text
