/-!
Classes of characters, given by the ranges of their code points.
-/

namespace Coinage.Text

/-- Whether one of some inclusive ranges holds a code point. -/
def inRanges (ranges : List (Nat × Nat)) (n : Nat) : Bool := ranges.any fun r => r.1 ≤ n && n ≤ r.2

end Coinage.Text
