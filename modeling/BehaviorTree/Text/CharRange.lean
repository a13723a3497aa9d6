namespace BehaviorTree.Text

/-!
# Ranges of characters

Unicode properties are written as lists of ranges of code points, both ends included.
-/

/-- Whether the code point of `c` lies in one of `ranges`, both ends included. -/
def inRanges (ranges : List (Nat × Nat)) (c : Char) : Bool :=
  ranges.any fun r => r.1 ≤ c.toNat && c.toNat ≤ r.2

theorem inRanges_eq_true_iff {ranges : List (Nat × Nat)} {c : Char} :
    inRanges ranges c = true ↔ ∃ r ∈ ranges, r.1 ≤ c.toNat ∧ c.toNat ≤ r.2 := by
  simp [inRanges]

end BehaviorTree.Text
