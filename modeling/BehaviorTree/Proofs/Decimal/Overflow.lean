import BehaviorTree.Decimal.Reader
import BehaviorTree.Proofs.Decimal.Value

namespace BehaviorTree.Decimal

/-!
# Numbers too large for a double

The greatest double is one step of `2 ^ 971` below `2 ^ 1024`.  A number in the middle of this step or
above it has an infinity as its nearest double.

* `lt_roundDiv_iff` — a quotient is rounded to the nearest integer, and to an even one in the middle;
* `exponentOf_bounds` — a number has 53 bits over the power of two that is chosen for it, if that is not
  the lowest one;
* `nearestBits_lt_iff` — the bits of the nearest double are those of a finite one exactly below the
  middle;
* `scientific_le`, `overflow_le_scientific` — where decimals with great exponents lie.
-/

/-- The middle between the greatest double and the power of two that follows it. -/
def overflow : ℚ := 2 ^ 1024 - 2 ^ 970

/-! ### Rounding -/

theorem div_le_roundDiv (num den : Nat) : num / den ≤ roundDiv num den := by
  unfold roundDiv
  dsimp only
  split
  · exact Nat.le_succ _
  · exact Nat.le_refl _

theorem roundDiv_le (num den : Nat) : roundDiv num den ≤ num / den + 1 := by
  unfold roundDiv
  dsimp only
  split
  · exact Nat.le_refl _
  · exact Nat.le_succ _

/-- A quotient is rounded beyond `m` from the middle after `m` on, and in the middle if `m` is odd. -/
theorem lt_roundDiv_iff {den : Nat} (hden : 0 < den) (num m : Nat) :
    m < roundDiv num den ↔
      (2 * m + 1) * den < 2 * num ∨ (2 * m + 1) * den = 2 * num ∧ m % 2 = 1 := by
  have hsplit := Nat.div_add_mod num den
  have hrest := Nat.mod_lt num hden
  have hmiddle : (2 * m + 1) * den = 2 * (den * m) + den := by ring
  rw [hmiddle]
  rcases Nat.lt_trichotomy m (num / den) with hlt | heq | hgt
  · have hrounded := div_le_roundDiv num den
    have hbelow := Nat.mul_le_mul_left den (Nat.succ_le_of_lt hlt)
    rw [Nat.mul_succ] at hbelow
    exact iff_of_true (by omega) (.inl (by omega))
  · rw [← heq] at hsplit
    unfold roundDiv
    rw [← heq]
    dsimp only
    split <;> omega
  · have hrounded := roundDiv_le num den
    have habove := Nat.mul_le_mul_left den (Nat.succ_le_of_lt hgt)
    rw [Nat.mul_succ] at habove
    exact iff_of_false (by omega) (by omega)

/-! ### The exponent of the nearest double -/

theorem overPower_div_lt_iff {den : Nat} (hden : 0 < den) (num m : Nat) (exponent : Int) :
    (overPower num den exponent).1 / (overPower num den exponent).2 < m ↔
      (num / den : ℚ) < m * 2 ^ exponent := by
  have hvalue := overPower_div num den exponent
  have hpos := overPower_pos hden num exponent
  generalize overPower num den exponent = r at hvalue hpos
  have hscaled : (num / den : ℚ) = r.1 / r.2 * 2 ^ exponent := by
    rw [hvalue, mul_assoc, ← zpow_add₀ (by norm_num), neg_add_cancel, zpow_zero, mul_one]
  rw [hscaled, mul_lt_mul_iff_left₀ (by positivity), div_lt_iff₀ (by exact_mod_cast hpos),
    Nat.div_lt_iff_lt_mul hpos]
  exact_mod_cast Iff.rfl

/-- The logarithms of numerator and denominator tell a quotient up to a factor of two. -/
theorem log2_sub_log2 {num den : Nat} (hnum : num ≠ 0) (hden : 0 < den) :
    (2 : ℚ) ^ (num.log2 - den.log2 - 1 : ℤ) < num / den ∧
      (num / den : ℚ) < 2 ^ (num.log2 - den.log2 + 1 : ℤ) := by
  have hpos : (0 : ℚ) < den := by exact_mod_cast hden
  have hnumlow : (2 : ℚ) ^ (num.log2 : ℤ) ≤ num := by exact_mod_cast Nat.log2_self_le hnum
  have hnumhigh : (num : ℚ) < 2 ^ (num.log2 + 1 : ℤ) := by exact_mod_cast Nat.lt_log2_self
  have hdenlow : (2 : ℚ) ^ (den.log2 : ℤ) ≤ den := by exact_mod_cast Nat.log2_self_le hden.ne'
  have hdenhigh : (den : ℚ) < 2 ^ (den.log2 + 1 : ℤ) := by exact_mod_cast Nat.lt_log2_self
  constructor
  · rw [lt_div_iff₀ hpos]
    calc (2 : ℚ) ^ (num.log2 - den.log2 - 1 : ℤ) * den
        < 2 ^ (num.log2 - den.log2 - 1 : ℤ) * 2 ^ (den.log2 + 1 : ℤ) := by gcongr
      _ = 2 ^ (num.log2 : ℤ) := by
          rw [← zpow_add₀ (by norm_num)]
          congr 1
          ring
      _ ≤ num := hnumlow
  · rw [div_lt_iff₀ hpos]
    calc (num : ℚ) < 2 ^ (num.log2 + 1 : ℤ) := hnumhigh
      _ = 2 ^ (num.log2 - den.log2 + 1 : ℤ) * 2 ^ (den.log2 : ℤ) := by
          rw [← zpow_add₀ (by norm_num)]
          congr 1
          ring
      _ ≤ 2 ^ (num.log2 - den.log2 + 1 : ℤ) * den := by gcongr

theorem two_pow_mul_zpow (n : Nat) (e : Int) : (2 : ℚ) ^ n * 2 ^ e = 2 ^ (n + e) := by
  rw [← zpow_natCast, ← zpow_add₀ (by norm_num)]

/-- Over the power of two with this exponent the quotient has 53 bits, if it is not the lowest one. -/
theorem exponentOf_bounds {num den : Nat} (hnum : num ≠ 0) (hden : 0 < den) :
    -1074 ≤ exponentOf num den ∧ (num / den : ℚ) < 2 ^ 53 * 2 ^ exponentOf num den ∧
      (exponentOf num den = -1074 ∨ 2 ^ 52 * 2 ^ exponentOf num den ≤ (num / den : ℚ)) := by
  obtain ⟨hlow, hhigh⟩ := log2_sub_log2 hnum hden
  have hquotient : ∀ e, (overPower num den e).1 / (overPower num den e).2 < 2 ^ 52 ↔
      (num / den : ℚ) < 2 ^ ((52 : ℕ) + e : ℤ) := by
    intro e
    rw [overPower_div_lt_iff hden, Nat.cast_pow, Nat.cast_ofNat, two_pow_mul_zpow]
  unfold exponentOf
  dsimp only [Binary.fractionBits, Binary.lowestExponent, Nat.pow_eq]
  simp only [hquotient, two_pow_mul_zpow]
  rcases le_or_gt (num.log2 - den.log2 - 52 : ℤ) (-1074) with hle | hgt
  · have hlowest : max (num.log2 - den.log2 - (52 : ℕ) : ℤ) (-1074) = -1074 := max_eq_right hle
    rw [hlowest, if_neg fun h => lt_irrefl _ h.2]
    refine ⟨le_refl _, hhigh.trans_le ?_, .inl rfl⟩
    exact zpow_le_zpow_right₀ (by norm_num) (by omega)
  · have hguess : max (num.log2 - den.log2 - (52 : ℕ) : ℤ) (-1074) = num.log2 - den.log2 - 52 :=
      max_eq_left hgt.le
    rw [hguess]
    split
    · next hsmall =>
      -- one bit is missing over the first guess
      refine ⟨by omega, hsmall.1.trans_le ?_, .inr (le_trans ?_ hlow.le)⟩
      · exact zpow_le_zpow_right₀ (by norm_num) (by omega)
      · exact zpow_le_zpow_right₀ (by norm_num) (by omega)
    · next hlarge =>
      have hbits := le_of_not_gt fun h => hlarge ⟨h, hgt⟩
      refine ⟨hgt.le, hhigh.trans_le ?_, .inr hbits⟩
      exact zpow_le_zpow_right₀ (by norm_num) (by omega)

/-! ### The nearest double -/

/-- Over the power of two of the greatest doubles a quotient is rounded to fewer than 54 bits exactly
    below the middle. -/
theorem roundDiv_lt_iff (num : Nat) {den : Nat} (hden : 0 < den) :
    roundDiv (overPower num den 971).1 (overPower num den 971).2 < 2 ^ 53 ↔
      (num / den : ℚ) < overflow := by
  have hvalue := overPower_div num den 971
  have hpos := overPower_pos hden num 971
  generalize overPower num den 971 = r at hvalue hpos
  have hrational : (0 : ℚ) < r.2 := by exact_mod_cast hpos
  have hrounded := lt_roundDiv_iff hpos r.1 (2 ^ 53 - 1)
  -- the odd number is `2 ^ 54 - 1`, and the middle is rounded up since `2 ^ 53 - 1` is odd
  have hbelow : roundDiv r.1 r.2 < 2 ^ 53 ↔ 2 * r.1 < 18014398509481983 * r.2 := by
    rw [and_iff_left (by norm_num), ← le_iff_lt_or_eq] at hrounded
    rw [← not_le, ← not_le]
    exact not_congr hrounded
  have hscaled : (num / den : ℚ) = r.1 / r.2 * 2 ^ 971 := by
    rw [hvalue, mul_assoc, zpow_neg, zpow_ofNat, inv_mul_cancel₀ (by positivity), mul_one]
  have hoverflow : overflow = 18014398509481983 / 2 * 2 ^ 971 := by
    rw [overflow, show (1024 : ℕ) = 54 + 970 from rfl, pow_add, pow_succ _ 970]
    generalize (2 : ℚ) ^ 970 = p
    ring
  rw [hbelow, hscaled, hoverflow, mul_lt_mul_iff_left₀ (by positivity), div_lt_iff₀ hrational,
    div_mul_eq_mul_div, lt_div_iff₀ (by norm_num), mul_comm (r.1 : ℚ)]
  exact_mod_cast Iff.rfl

/-- The middle is above 53 bits over the power of two before that of the greatest doubles, and not above
    52 bits over the one after it. -/
theorem overflow_bounds :
    2 ^ 53 * 2 ^ (970 : ℤ) ≤ overflow ∧ overflow ≤ 2 ^ 52 * 2 ^ (972 : ℤ) := by
  have hlow : (2 : ℚ) ^ 53 * 2 ^ 970 = 2 ^ 1023 := (pow_add _ _ _).symm
  have hhigh : (2 : ℚ) ^ 52 * 2 ^ 972 = 2 ^ 1024 := (pow_add _ _ _).symm
  have hdouble : (2 : ℚ) ^ 1024 = 2 ^ 1023 * 2 := pow_succ _ _
  have hstep : (2 : ℚ) ^ 970 ≤ 2 ^ 1023 := pow_le_pow_right₀ (by norm_num) (by norm_num)
  rw [overflow, zpow_ofNat, zpow_ofNat, hlow, hhigh, hdouble]
  constructor
  · rw [mul_two]
    exact le_sub_iff_add_le.2 (add_le_add_right hstep _)
  · exact sub_le_self _ (by positivity)

/-- The bits are at most those of infinity. -/
theorem nearestBits_le (num den : Nat) : nearestBits num den ≤ 2047 * 2 ^ 52 := by
  unfold nearestBits
  split
  · exact Nat.zero_le _
  · exact Nat.min_le_right _ _

/-- The bits are those of a finite double exactly below the middle. -/
theorem nearestBits_lt_iff (num : Nat) {den : Nat} (hden : 0 < den) :
    nearestBits num den < 2047 * 2 ^ 52 ↔ (num / den : ℚ) < overflow := by
  unfold nearestBits
  split
  · next hzero =>
    refine iff_of_true (by decide) ?_
    rw [hzero, Nat.cast_zero, zero_div, overflow, sub_pos]
    exact pow_lt_pow_right₀ (by norm_num) (by norm_num)
  · next hnum =>
    obtain ⟨hlow, hhigh, hbits⟩ := exponentOf_bounds hnum hden
    generalize exponentOf num den = e at hlow hhigh hbits
    dsimp only [Binary.fractionBits, Binary.lowestExponent, Nat.pow_eq]
    have hdigits := overPower_div_lt_iff hden num (2 ^ 53) e
    have hdigits' := overPower_div_lt_iff hden num (2 ^ 52) e
    rw [Nat.cast_pow, Nat.cast_ofNat] at hdigits hdigits'
    have hround := div_le_roundDiv (overPower num den e).1 (overPower num den e).2
    have hround' := roundDiv_le (overPower num den e).1 (overPower num den e).2
    rw [min_lt_iff, or_iff_left (lt_irrefl _)]
    -- the greatest doubles have the exponent 971
    rcases lt_trichotomy e 971 with hlt | rfl | hgt
    · have hbelow : (2 : ℚ) ^ 53 * 2 ^ e ≤ 2 ^ 53 * 2 ^ (970 : ℤ) := by
        gcongr
        · norm_num
        · omega
      have hfits := hdigits.2 hhigh
      exact iff_of_true (by omega) (hhigh.trans_le (hbelow.trans overflow_bounds.1))
    · have hsteps : (971 - -1074 : ℤ).toNat = 2045 := rfl
      rw [← roundDiv_lt_iff num hden, hsteps]
      omega
    · have habove : (2 : ℚ) ^ 52 * 2 ^ (972 : ℤ) ≤ 2 ^ 52 * 2 ^ e := by
        gcongr
        · norm_num
        · omega
      have hlarge := hbits.resolve_left (by omega)
      have hfull := not_lt.1 fun h => not_lt.2 hlarge (hdigits'.1 h)
      exact iff_of_false (by omega) (not_lt.2 ((overflow_bounds.2.trans habove).trans hlarge))

/-! ### Decimals -/

theorem one_lt_overflow : 1 < overflow := by
  refine lt_of_lt_of_le ?_ overflow_bounds.1
  exact one_lt_mul_of_lt_of_le (by norm_num) (one_le_zpow₀ (by norm_num) (by norm_num))

/-- The powers of ten that are out of reach are above the middle. -/
theorem overflow_le : overflow ≤ 10 ^ (400 : ℤ) := by
  have hpow : (2 : ℚ) ^ 1024 ≤ 10 ^ 400 := by
    rw [show (1024 : ℕ) = 64 * 16 from rfl, show (400 : ℕ) = 25 * 16 from rfl, pow_mul, pow_mul]
    exact pow_le_pow_left₀ (by norm_num) (by norm_num) _
  refine le_trans ?_ hpow
  exact sub_le_self _ (by positivity)

/-- A decimal is at most the power of ten that the bits of its digits allow. -/
theorem scientific_le (digits : Nat) (exponent : Int) :
    (digits * 10 ^ exponent : ℚ) ≤ 10 ^ (digits.log2 + 1 + exponent : ℤ) := by
  have hlog : digits ≤ 10 ^ (digits.log2 + 1) :=
    Nat.lt_log2_self.le.trans (Nat.pow_le_pow_left (by norm_num) _)
  have hdigits : (digits : ℚ) ≤ 10 ^ (digits.log2 + 1 : ℤ) := by exact_mod_cast hlog
  rw [zpow_add₀ (by norm_num)]
  gcongr

/-- A decimal with a digit besides zeros is above the middle if its exponent is out of reach. -/
theorem overflow_le_scientific {digits : Nat} {exponent : Int} (hdigits : digits ≠ 0)
    (hexponent : outOfReach < exponent) : overflow ≤ digits * 10 ^ exponent := by
  have hone : (1 : ℚ) ≤ digits := by exact_mod_cast Nat.one_le_iff_ne_zero.2 hdigits
  calc overflow ≤ 10 ^ (400 : ℤ) := overflow_le
    _ ≤ 10 ^ exponent := zpow_le_zpow_right₀ (by norm_num) hexponent.le
    _ ≤ digits * 10 ^ exponent := le_mul_of_one_le_left (by positivity) hone

end BehaviorTree.Decimal
