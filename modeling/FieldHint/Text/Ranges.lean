/-!
# Sets of characters

Properties of characters are tables of ranges of code points.
-/

namespace FieldHint.Text

/-- A set of characters: ranges of code points, both ends included. -/
abbrev CharRanges := List (Nat × Nat)

/-- Whether some range holds the character. -/
def CharRanges.covers (ranges : CharRanges) (c : Char) : Bool :=
  ranges.any fun r => r.1 ≤ c.toNat && c.toNat ≤ r.2

end FieldHint.Text
