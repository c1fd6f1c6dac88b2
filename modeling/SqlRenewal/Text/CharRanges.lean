/-!
# Tables of character ranges

Properties of the Unicode standard are kept as lists of inclusive code-point
ranges. Membership is a plain search, so a statement about one character reduces
to comparing numbers.
-/
namespace SqlRenewal

/-- Inclusive ranges of code points. -/
abbrev CharRanges := List (Nat × Nat)

/-- The character lies in one of the ranges. -/
def CharRanges.holds (ranges : CharRanges) (c : Char) : Bool :=
  ranges.any fun range => decide (range.1 ≤ c.toNat) && decide (c.toNat ≤ range.2)

end SqlRenewal
