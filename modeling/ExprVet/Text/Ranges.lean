/-! # Classes of code points

A class of characters is given by the ranges of its code points, in increasing order. -/

namespace ExprVet.Text

/-- Whether a code point lies in one of the ranges, both ends included. -/
def inRanges (ranges : List (Nat × Nat)) (code : Nat) : Bool :=
  ranges.any fun range => range.1 ≤ code && code ≤ range.2

end ExprVet.Text
