/-!
# Code point ranges

Properties of characters that a standard lists as ranges of code points are kept as lists of closed
intervals, and looked up by `inRanges`.
-/

set_option autoImplicit false

namespace SelectorCatalog.Text

/-- Whether `n` lies in one of the closed intervals. -/
def inRanges (ranges : List (Nat × Nat)) (n : Nat) : Bool :=
  ranges.any fun r => decide (r.1 ≤ n) && decide (n ≤ r.2)

theorem inRanges_iff {ranges : List (Nat × Nat)} {n : Nat} :
    inRanges ranges n = true ↔ ∃ r ∈ ranges, r.1 ≤ n ∧ n ≤ r.2 := by
  simp [inRanges]

@[simp] theorem inRanges_nil (n : Nat) : inRanges [] n = false := rfl

end SelectorCatalog.Text
