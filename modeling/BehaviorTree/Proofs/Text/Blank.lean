import BehaviorTree.Text.Blank
import BehaviorTree.Text.Letter

namespace BehaviorTree.Text

/-!
# Blanks among the other characters

White space has no character in common with letters, numerals and the marks that a tree file is written
with.  Main statements: `not_isLetter_of_isBlank`, `not_isNumeral_of_isBlank` and
`ne_of_isBlank_of_visible`.
-/

/-- No range of the first list meets one of the second. -/
def rangesApart (rs ss : List (Nat × Nat)) : Bool :=
  rs.all fun r => ss.all fun s => r.2 < s.1 || s.2 < r.1

theorem inRanges_of_rangesApart {rs ss : List (Nat × Nat)} (h : rangesApart rs ss = true) {c : Char}
    (hc : inRanges rs c = true) : inRanges ss c = false := by
  rw [Bool.eq_false_iff]
  intro hc'
  obtain ⟨r, hr, hlow, hhigh⟩ := inRanges_eq_true_iff.1 hc
  obtain ⟨s, hs, hlow', hhigh'⟩ := inRanges_eq_true_iff.1 hc'
  have hrs := List.all_eq_true.1 (List.all_eq_true.1 h r hr) s hs
  simp only [Bool.or_eq_true, decide_eq_true_eq] at hrs
  omega

/-! ### Characters of ASCII -/

/-- The blanks of ASCII are the space and characters before it. -/
theorem toNat_le_of_isBlank {c : Char} (h : isBlank c = true) (hascii : c.toNat < 128) :
    c.toNat ≤ 32 := by
  obtain ⟨r, hr, hlow, hhigh⟩ := inRanges_eq_true_iff.1 h
  simp only [blankRanges, List.mem_cons, List.not_mem_nil, or_false] at hr
  rcases hr with rfl | rfl | rfl | rfl | rfl | rfl | rfl | rfl | rfl | rfl <;>
    simp only at hlow hhigh <;> omega

/-- A blank is none of the marks and digits of ASCII. -/
theorem ne_of_isBlank_of_visible {c d : Char} (h : isBlank c = true) (hvisible : 32 < d.toNat)
    (hascii : d.toNat < 128) : c ≠ d := by
  rintro rfl
  have := toNat_le_of_isBlank h hascii
  omega

theorem range_of_isDigit {c : Char} (h : c.isDigit = true) : 48 ≤ c.toNat ∧ c.toNat ≤ 57 := by
  obtain ⟨hlow, hhigh⟩ := Bool.and_eq_true_iff.1 h
  exact ⟨UInt32.le_iff_toNat_le.1 (of_decide_eq_true hlow),
    UInt32.le_iff_toNat_le.1 (of_decide_eq_true hhigh)⟩

theorem range_of_isAlpha {c : Char} (h : c.isAlpha = true) :
    65 ≤ c.toNat ∧ c.toNat ≤ 90 ∨ 97 ≤ c.toNat ∧ c.toNat ≤ 122 := by
  rcases Bool.or_eq_true_iff.1 h with hupper | hlower
  · obtain ⟨hlow, hhigh⟩ := of_decide_eq_true hupper
    exact .inl ⟨UInt32.le_iff_toNat_le.1 hlow, UInt32.le_iff_toNat_le.1 hhigh⟩
  · obtain ⟨hlow, hhigh⟩ := Bool.and_eq_true_iff.1 hlower
    exact .inr ⟨UInt32.le_iff_toNat_le.1 (of_decide_eq_true hlow),
      UInt32.le_iff_toNat_le.1 (of_decide_eq_true hhigh)⟩

theorem not_isDigit_of_isBlank {c : Char} (h : isBlank c = true) : c.isDigit = false := by
  rw [Bool.eq_false_iff]
  intro hdigit
  have hrange := range_of_isDigit hdigit
  have := toNat_le_of_isBlank h (by omega)
  omega

theorem not_isAlpha_of_isBlank {c : Char} (h : isBlank c = true) : c.isAlpha = false := by
  rw [Bool.eq_false_iff]
  intro halpha
  have hrange := range_of_isAlpha halpha
  have := toNat_le_of_isBlank h (by omega)
  omega

theorem not_isLetter_of_isBlank {c : Char} (h : isBlank c = true) : isLetter c = false := by
  unfold isLetter
  split
  · exact not_isAlpha_of_isBlank h
  · exact inRanges_of_rangesApart (by decide +kernel : rangesApart blankRanges letterRanges = true) h

theorem not_isNumeral_of_isBlank {c : Char} (h : isBlank c = true) : isNumeral c = false := by
  unfold isNumeral
  split
  · exact not_isDigit_of_isBlank h
  · exact inRanges_of_rangesApart (by decide +kernel : rangesApart blankRanges numeralRanges = true) h

end BehaviorTree.Text
