/-!
# Tables of code point ranges

A character class of a standard is given as a list of ranges in ascending order.
-/

namespace StructUnfold.Text

/-- Ranges of code points in ascending order, both ends included. -/
abbrev Ranges := List (Nat × Nat)

/-- Whether a code point lies in one of the ranges; the search ends at the first range above it. -/
def Ranges.mem (n : Nat) : Ranges → Bool
  | [] => false
  | (first, last) :: rest => first ≤ n && (n ≤ last || Ranges.mem n rest)

end StructUnfold.Text
