/-
# Ranges of characters

A class of characters is a list of ranges of code points, in ascending order.
-/

namespace Rulebook.Text

/-- The code points from the first to the second, both included. -/
abbrev CharRange := Nat × Nat

def CharRange.contains (r : CharRange) (c : Char) : Bool :=
  decide (r.1 ≤ c.toNat) && decide (c.toNat ≤ r.2)

/-- Membership in a class given by its ranges. -/
def inRanges (ranges : List CharRange) (c : Char) : Bool := ranges.any (·.contains c)

end Rulebook.Text
