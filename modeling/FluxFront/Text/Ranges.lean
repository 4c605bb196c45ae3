/-!
# Sets of characters given by ranges

A character class of a standard is a table of code point ranges.  `inRanges` looks a character up.
-/

namespace FluxFront.Text

/-- First and last code point of a run of characters of one class. -/
abbrev Range := Nat × Nat

/-- Whether a character falls in one of the ranges of a table. -/
def inRanges (table : List Range) (c : Char) : Bool :=
  table.any fun r => decide (r.1 ≤ c.toNat) && decide (c.toNat ≤ r.2)

theorem inRanges_eq_true_iff {table : List Range} {c : Char} :
    inRanges table c = true ↔ ∃ r ∈ table, r.1 ≤ c.toNat ∧ c.toNat ≤ r.2 := by
  simp [inRanges]

end FluxFront.Text
