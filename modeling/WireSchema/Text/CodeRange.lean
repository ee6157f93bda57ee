/-!
# Ranges of code points

A property of characters is given as a list of inclusive ranges of code points.
-/

namespace WireSchema.Text

/-- Whether one of the inclusive ranges holds the code point `n`. -/
def inRanges (ranges : List (Nat × Nat)) (n : Nat) : Bool :=
  ranges.any fun r => r.1 ≤ n && n ≤ r.2

end WireSchema.Text
