/-!
# Ranges of code points

A property of characters that a standard publishes as a table is kept here as a list of closed
ranges of code points, and asked by `inRanges`.
-/

namespace Pubsub

/-- Does the code point lie in one of the closed ranges? -/
def inRanges (ranges : List (Nat × Nat)) (code : Nat) : Bool :=
  ranges.any (fun range => range.1 ≤ code && code ≤ range.2)

/-- A code point is in the ranges iff one of them holds it. -/
theorem inRanges_iff {ranges : List (Nat × Nat)} {code : Nat} :
    inRanges ranges code = true ↔ ∃ range ∈ ranges, range.1 ≤ code ∧ code ≤ range.2 := by
  simp [inRanges]

end Pubsub
