/-!
# Sets of characters as ranges of code points

A property of characters is given by the ascending ranges of code points that have it, both ends
included.

The tables are those of one version of Unicode, and code points that are not assigned in it have the
properties that it gives to them.
-/

namespace DocGraph.Text

/-- Whether a character lies in one of the ranges. The ranges are tried one after the other, as they
are few. -/
def inRanges (ranges : List (Nat × Nat)) (c : Char) : Bool :=
  ranges.any fun range => range.1 ≤ c.toNat && c.toNat ≤ range.2

end DocGraph.Text
