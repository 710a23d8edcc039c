/-!
# Sets of characters

A set of characters is given by the ranges of their codes, in ascending order.
-/

namespace PatternQuery.Text

/-- Whether a character code lies in one of the ranges. -/
def inRanges (ranges : List (Nat × Nat)) (code : Nat) : Bool :=
  ranges.any fun r => r.1 ≤ code && code ≤ r.2

end PatternQuery.Text
