/-!
# Ranges of code points

A set of characters is given as a table of ranges of code points, each by its
first and its last one, in increasing order.
-/

namespace MiniScheme

/-- Ranges of code points. -/
abbrev CodePoints := List (Nat × Nat)

/-- Does the character lie in one of the ranges? -/
def CodePoints.contain (ranges : CodePoints) (c : Char) : Bool :=
  ranges.any fun (first, last) => first ≤ c.toNat && c.toNat ≤ last

end MiniScheme
