/-!
# Sets of code points

A set of code points is a list of closed intervals, the form in which character properties are
tabulated.
-/

namespace RegisterMap.Text

/-- Closed intervals of code points. -/
abbrev CodePoints := List (Nat × Nat)

namespace CodePoints

/-- Whether a character lies in one of the intervals. -/
def contains (table : CodePoints) (c : Char) : Bool :=
  table.any fun (low, high) => low ≤ c.toNat && c.toNat ≤ high

end CodePoints

end RegisterMap.Text
