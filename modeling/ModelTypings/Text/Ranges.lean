/-!
# Sets of characters given by ranges of code points

* `inRanges`: membership in a table of closed ranges.
-/

namespace ModelTypings.Text

/-- The code point of `c` lies in one of the closed ranges. -/
def inRanges (ranges : List (Nat × Nat)) (c : Char) : Bool :=
  ranges.any fun r => decide (r.1 ≤ c.toNat) && decide (c.toNat ≤ r.2)

end ModelTypings.Text
