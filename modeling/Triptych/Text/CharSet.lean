/-!
# Sets of characters

The classes into which the Unicode standard sorts characters are large and irregular, but each
consists of few ranges of code points. A `CharSet` is the list of these ranges.
-/

namespace Triptych.Text

/-- A set of characters. -/
structure CharSet where
  /-- Ranges of code points, both ends of which belong to the set. -/
  ranges : List (Nat × Nat)
deriving Repr

namespace CharSet

/-- True when a character is in the set. -/
def contains (set : CharSet) (c : Char) : Bool :=
  set.ranges.any fun range => range.1 ≤ c.toNat && c.toNat ≤ range.2

end CharSet

end Triptych.Text
