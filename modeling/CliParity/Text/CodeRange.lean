/-!
# Sets of characters given by code point ranges

The character classes of this library are standard Unicode properties. Each is written as a list
of inclusive code point ranges, in ascending order.
-/

set_option autoImplicit false

namespace CliParity.Text

/-- Whether the code point of `c` lies in one of the inclusive ranges. -/
def inRanges (ranges : List (Nat × Nat)) (c : Char) : Bool :=
  ranges.any fun (lo, hi) => decide (lo ≤ c.toNat) && decide (c.toNat ≤ hi)

end CliParity.Text
