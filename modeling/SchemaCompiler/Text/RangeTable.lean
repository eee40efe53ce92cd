/-!
Sets of characters as ranges of code points.
-/

namespace SchemaCompiler.Text

/-- A sorted table of closed ranges of code points. -/
abbrev RangeTable := List (Nat × Nat)

/-- Membership in a sorted table; the search ends at the first range that starts beyond `n`. -/
def RangeTable.covers : RangeTable → Nat → Bool
  | [], _ => false
  | (low, high) :: rest, n =>
    if n < low then false else n ≤ high || RangeTable.covers rest n

end SchemaCompiler.Text
