/-!
# Ranges of code points

A property of characters is kept as the list of the ranges that have it, each given by its first
and last code point.
-/

namespace ActionString.Text

/-- Whether a character lies in one of the ranges, ends included. -/
def inRanges (ranges : List (Nat × Nat)) (c : Char) : Bool :=
  ranges.any fun range => range.1 ≤ c.toNat && c.toNat ≤ range.2

end ActionString.Text
