/-!
# Sets of code points

A property of characters is kept as the list of the ranges that have it, in
rising order.  The first 128 code points are so common that every property below
has its own short answer for them; the tables hold what lies above.
-/

namespace FilterQuery.Text

/-- A code point lies in a set of closed ranges. -/
def inRanges (ranges : List (Nat × Nat)) (n : Nat) : Bool :=
  ranges.any fun r => r.1 ≤ n && n ≤ r.2

/-- The code point of a character lies in a set of closed ranges. -/
def charIn (ranges : List (Nat × Nat)) (c : Char) : Bool :=
  inRanges ranges c.toNat

/-- A code point is in the ranges if one of them covers it. -/
theorem inRanges_iff {ranges : List (Nat × Nat)} {n : Nat} :
    inRanges ranges n = true ↔ ∃ r ∈ ranges, r.1 ≤ n ∧ n ≤ r.2 := by
  simp [inRanges]

end FilterQuery.Text
