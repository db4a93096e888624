/-!
# Sets of characters by ranges

A set of characters that has no short description is kept as the list of its
ranges of code points.
-/

set_option autoImplicit false

namespace FormulaCalculator.Text

/-- The code points from `first` to `last`. -/
structure CodeRange where
  first : Nat
  last : Nat
deriving DecidableEq, Repr

/-- Whether a character is in one of the ranges. -/
def inRanges (ranges : List CodeRange) (c : Char) : Bool :=
  ranges.any fun range => range.first ≤ c.toNat && c.toNat ≤ range.last

/-- A character is in a set if it is in one of its ranges. -/
theorem inRanges_eq_true_iff {ranges : List CodeRange} {c : Char} :
    inRanges ranges c = true ↔
      ∃ range ∈ ranges, range.first ≤ c.toNat ∧ c.toNat ≤ range.last := by
  simp [inRanges]

/-- The ranges with the given ends. -/
def codeRanges (ends : List (Nat × Nat)) : List CodeRange :=
  ends.map fun (first, last) => ⟨first, last⟩

end FormulaCalculator.Text
