/-!
# Ranges of code points

A class of characters is a list of closed ranges of code points.
-/

namespace ScopedExpr

/-- The code points from `first` to `last`, both included. -/
structure CodePointRange where
  first : Nat
  last : Nat

namespace CodePointRange

def contains (r : CodePointRange) (n : Nat) : Bool := r.first ≤ n && n ≤ r.last

def anyContains (ranges : List CodePointRange) (n : Nat) : Bool :=
  ranges.any fun r => r.contains n

end CodePointRange

end ScopedExpr
