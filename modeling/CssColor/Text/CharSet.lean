/-! # Text: sets of characters

A `CharSet` is given by its bounds, in increasing order: the codes from the first bound up to the
second are in it, those from the second up to the third are not, and so on. The character classes of
Unicode are written this way. -/

namespace CssColor.Text

/-- A set of characters, given by the codes where membership changes. -/
structure CharSet where
  bounds : List Nat

/-- Membership: an odd number of bounds lies at or below the code. -/
def CharSet.contains (s : CharSet) (c : Char) : Bool :=
  (s.bounds.takeWhile (· ≤ c.toNat)).length % 2 = 1

end CssColor.Text
