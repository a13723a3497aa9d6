import BehaviorTree.Proofs.Decimal.Overflow
import BehaviorTree.Proofs.Decimal.Rendering

namespace BehaviorTree.Decimal

/-!
# The nearest double

What it means that a double is the nearest one to a number, apart from how it is found.

* `IsNearest` — the number lies around the double, or it is too large and the double is infinite;
* `IsNearest.unique` — there is only one nearest double;
* `isNearest_nearest`, `isNearest_ofScientific` — rounding a fraction or a decimal finds it;
* `isNearest_iff_readFloat?` — the nearest double to the number of a numeral is what the numeral is read
  as.
-/

variable {q : ℚ} {x y : Float}

/-- A double is the nearest one to a number that is not negative: the number lies between the middles
    to both sides of the double, where a middle itself goes to the even significand.  From the middle
    above the greatest double on the nearest one is infinite. -/
inductive IsNearest (q : ℚ) (x : Float) : Prop
  | finite {m : Nat} {e : Int} : Binary.ofFloat x = .finite false m e → Around m e q → IsNearest q x
  | infinite : Binary.ofFloat x = .infinite false → overflow ≤ q → IsNearest q x

/-! ### There is only one -/

/-- The exponents of doubles end at 971. -/
theorem exponent_le {negative : Bool} {m : Nat} {e : Int}
    (h : Binary.ofFloat x = .finite negative m e) : e ≤ 971 := by
  rw [Binary.ofFloat, Binary.ofBits_eq] at h
  unfold Binary.lowestExponent at h
  split at h
  · split at h <;> cases h
  · split at h
    · cases h
      omega
    · cases h
      omega

/-- The numbers around a double end below the middle above the greatest one. -/
theorem Around.lt_overflow {m : Nat} {e : Int} (h : Around m e q) (hm : m < 2 ^ 53) (he : e ≤ 971) :
    q < overflow := by
  have hpower : (2 : ℚ) ^ e ≤ 2 ^ (971 : ℤ) := zpow_le_zpow_right₀ (by norm_num) he
  have hpos : (0 : ℚ) < 2 ^ (971 : ℤ) := by positivity
  have hoverflow : overflow = (2 ^ 53 - 1 / 2) * 2 ^ (971 : ℤ) := by
    have hlast : (2 : ℚ) ^ 971 = 2 ^ 970 * 2 := pow_succ _ _
    rw [overflow, zpow_ofNat, show (1024 : ℕ) = 53 + 971 from rfl, pow_add, hlast]
    generalize (2 : ℚ) ^ 970 = p
    ring
  rw [hoverflow]
  generalize (2 : ℚ) ^ (971 : ℤ) = p at hpower hpos
  have hend : upperEnd m e ≤ (m + 1 / 2) * p := by
    unfold upperEnd
    gcongr
  rcases Nat.mod_two_eq_zero_or_one m with heven | hodd
  · have hbelow : (m : ℚ) + 2 ≤ 2 ^ 53 := by exact_mod_cast (show m + 2 ≤ 2 ^ 53 by omega)
    refine (h.le_upperEnd.trans hend).trans_lt ?_
    gcongr
    linarith
  · have hbelow : (m : ℚ) + 1 ≤ 2 ^ 53 := by exact_mod_cast hm
    refine ((h.strict hodd).2.trans_le hend).trans_le ?_
    gcongr
    linarith

/-- The nearest double is finite exactly below this middle. -/
theorem IsNearest.isFinite_iff (h : IsNearest q x) : isFinite x = true ↔ q < overflow := by
  cases h with
  | finite hx haround =>
    refine iff_of_true ?_ (haround.lt_overflow (significand_lt hx) (exponent_le hx))
    rw [isFinite, hx]
  | infinite hx hle =>
    refine iff_of_false ?_ (not_lt.2 hle)
    rw [isFinite, hx]
    exact Bool.false_ne_true

/-- A number has one nearest double. -/
theorem IsNearest.unique (hx : IsNearest q x) (hy : IsNearest q y) : x = y := by
  have hsame : isFinite x = true ↔ isFinite y = true := hx.isFinite_iff.trans hy.isFinite_iff.symm
  unfold isFinite at hsame
  cases hx with
  | finite hx haround =>
    cases hy with
    | finite hy haround' =>
      obtain ⟨rfl, rfl⟩ := eq_of_around (isCanonical_of_ofFloat hx) (isCanonical_of_ofFloat hy)
        haround haround'
      exact ofFloat_injective (hx ▸ nofun) (hx.trans hy.symm)
    | infinite hy _ =>
      rw [hx, hy] at hsame
      exact absurd (hsame.1 rfl) Bool.false_ne_true
  | infinite hx _ =>
    cases hy with
    | finite hy _ =>
      rw [hx, hy] at hsame
      exact absurd (hsame.2 rfl) Bool.false_ne_true
    | infinite hy _ => exact ofFloat_injective (hx ▸ nofun) (hx.trans hy.symm)

/-! ### Rounding -/

/-- A quotient lies at most a half away from the integer that it is rounded to, and less than that if
    the integer is odd. -/
theorem roundDiv_bounds (num : Nat) {den : Nat} (hden : 0 < den) :
    2 * num ≤ (2 * roundDiv num den + 1) * den ∧ 2 * roundDiv num den * den ≤ 2 * num + den ∧
      (roundDiv num den % 2 = 1 →
        2 * num < (2 * roundDiv num den + 1) * den ∧ 2 * roundDiv num den * den < 2 * num + den) := by
  have habove := (lt_roundDiv_iff hden num (roundDiv num den)).not.1 (lt_irrefl _)
  have hbelow := lt_roundDiv_iff hden num (roundDiv num den - 1)
  generalize roundDiv num den = r at habove hbelow
  cases r with
  | zero => omega
  | succ r =>
    have hrounded := hbelow.1 (Nat.lt_succ_self r)
    have hstep : 2 * (r + 1) * den = (2 * r + 1) * den + den := by ring
    rw [hstep]
    rw [Nat.add_sub_cancel] at hrounded
    omega

/-- A number lies around a double if, in units of the last place, it is at most a half above the
    significand and not further below it than the double reaches. -/
theorem around_of_bounds {m : Nat} {e : Int} {v : ℚ} (hlow : m - marginBelow m e ≤ v)
    (hhigh : v ≤ m + 1 / 2) (hodd : m % 2 = 1 → (m - 1 / 2 : ℚ) < v ∧ v < m + 1 / 2) :
    Around m e (v * 2 ^ e) := by
  have hpos : (0 : ℚ) < 2 ^ e := by positivity
  unfold Around lowerEnd upperEnd
  split
  · exact ⟨by gcongr, by gcongr⟩
  · next hne =>
    obtain ⟨hlow', hhigh'⟩ := hodd (by omega)
    have hmargin : marginBelow m e = 1 / 2 := if_neg fun h => hne (by rw [h.1]; rfl)
    rw [hmargin]
    exact ⟨by gcongr, by gcongr⟩

/-- A quotient lies around the double that it is rounded to, if it has 53 bits or the exponent is the
    lowest one. -/
theorem around_roundDiv (num : Nat) {den : Nat} (hden : 0 < den) {e : Int}
    (hfull : e = -1074 ∨ (2 ^ 52 : ℚ) ≤ num / den) :
    Around (roundDiv num den) e (num / den * 2 ^ e) := by
  obtain ⟨hhigh, hlow, hodd⟩ := roundDiv_bounds num hden
  generalize roundDiv num den = r at hhigh hlow hodd
  have hpos : (0 : ℚ) < den := by exact_mod_cast hden
  have hhigh' : (2 * num : ℚ) ≤ (2 * r + 1) * den := by exact_mod_cast hhigh
  have hlow' : (2 * r * den : ℚ) ≤ 2 * num + den := by exact_mod_cast hlow
  refine around_of_bounds ?_ ?_ fun h => ?_
  · unfold marginBelow
    split
    · next hmin =>
      -- a power of two is not reached from below, for the quotient would have fewer bits
      obtain ⟨rfl, hlt⟩ := hmin
      have hbits := hfull.resolve_left (by omega)
      push_cast
      linarith
    · rw [le_div_iff₀ hpos]
      linarith
  · rw [div_le_iff₀ hpos]
    linarith
  · obtain ⟨hhigh, hlow⟩ := hodd h
    have hhigh' : (2 * num : ℚ) < (2 * r + 1) * den := by exact_mod_cast hhigh
    have hlow' : (2 * r * den : ℚ) < 2 * num + den := by exact_mod_cast hlow
    rw [lt_div_iff₀ hpos, div_lt_iff₀ hpos]
    exact ⟨by linarith, by linarith⟩

/-- A significand with one bit too many is half of it with the next exponent. -/
theorem Around.carry {e : Int} (he : -1074 ≤ e) (h : Around (2 ^ 53) e q) :
    Around (2 ^ 52) (e + 1) q := by
  have hpos : (0 : ℚ) < 2 ^ e := by positivity
  have hdouble : (2 : ℚ) ^ (e + 1) = 2 ^ e * 2 := zpow_add_one₀ (by norm_num) e
  have hlow := h.lowerEnd_le
  have hhigh := h.le_upperEnd
  unfold lowerEnd marginBelow at hlow
  unfold upperEnd at hhigh
  rw [if_neg (by omega)] at hlow
  rw [Around, if_pos (by norm_num), lowerEnd, upperEnd, marginBelow, if_pos ⟨rfl, by omega⟩, hdouble]
  push_cast at hlow hhigh ⊢
  exact ⟨by linarith, by linarith⟩

/-- The bits up to those of infinity are read back. -/
theorem ofFloat_ofBits {n : Nat} (h : n ≤ 2047 * 2 ^ 52) :
    Binary.ofFloat (Float.ofBits (UInt64.ofNat n)) = Binary.ofBits n := by
  have hlt : n < 2 ^ 64 := Nat.lt_of_le_of_lt h (by decide)
  have hbits := toBits_ofBits (UInt64.ofNat n)
  rw [UInt64.toNat_ofNat_of_lt' hlt] at hbits
  rcases hbits with hbits | ⟨hfield, hfraction, -⟩
  · rw [Binary.ofFloat, hbits, UInt64.toNat_ofNat_of_lt' hlt]
  · omega

/-- Bits in steps of the last place: the significand follows the exponent. -/
theorem ofBits_steps {steps r : Nat} (hr : r < 2 ^ 53) (hfull : steps = 0 ∨ 2 ^ 52 ≤ r)
    (hlt : steps * 2 ^ 52 + r < 2047 * 2 ^ 52) :
    Binary.ofBits (steps * 2 ^ 52 + r) = .finite false r (steps - 1074) := by
  have hsign : (steps * 2 ^ 52 + r) / 2 ^ 63 % 2 = 0 := by omega
  rw [Binary.ofBits_eq, hsign, Binary.lowestExponent]
  rcases Nat.lt_or_ge r (2 ^ 52) with hsmall | hlarge
  · obtain rfl := hfull.resolve_right (Nat.not_le.2 hsmall)
    rw [if_neg (by omega), if_pos (by omega)]
    congr 1
    omega
  · rw [if_neg (by omega), if_neg (by omega)]
    congr 1 <;> omega

/-- A quotient below a power of two is not rounded above it, and one from it on not below. -/
theorem roundDiv_between {num den bits : Nat} (hden : 0 < den) :
    ((num / den : ℚ) < 2 ^ bits → roundDiv num den ≤ 2 ^ bits) ∧
      ((2 ^ bits : ℚ) ≤ num / den → 2 ^ bits ≤ roundDiv num den) := by
  have hpos : (0 : ℚ) < den := by exact_mod_cast hden
  constructor
  · intro h
    rw [div_lt_iff₀ hpos] at h
    have hlt : num < 2 ^ bits * den := by exact_mod_cast h
    exact (roundDiv_le num den).trans ((Nat.div_lt_iff_lt_mul hden).2 hlt)
  · intro h
    rw [le_div_iff₀ hpos] at h
    have hle : 2 ^ bits * den ≤ num := by exact_mod_cast h
    exact ((Nat.le_div_iff_mul_le hden).2 hle).trans (div_le_roundDiv num den)

/-- The bits of a significand that was rounded to 53 bits, or one more, make the nearest double. -/
theorem isNearest_of_steps {steps r : Nat} (hr : r ≤ 2 ^ 53) (hfull : steps = 0 ∨ 2 ^ 52 ≤ r)
    (haround : Around r (steps - 1074) q)
    (hx : Binary.ofFloat x = Binary.ofBits (min (steps * 2 ^ 52 + r) (2047 * 2 ^ 52)))
    (hover : 2047 * 2 ^ 52 ≤ steps * 2 ^ 52 + r → overflow ≤ q) : IsNearest q x := by
  rcases Nat.lt_or_ge (steps * 2 ^ 52 + r) (2047 * 2 ^ 52) with hlt | hge
  · rw [min_eq_left hlt.le] at hx
    rcases hr.lt_or_eq with hfits | rfl
    · rw [ofBits_steps hfits hfull hlt] at hx
      exact .finite hx haround
    · -- the bit too many is carried into the exponent
      have hcarry : steps * 2 ^ 52 + 2 ^ 53 = (steps + 1) * 2 ^ 52 + 2 ^ 52 := by omega
      rw [hcarry] at hx hlt
      rw [ofBits_steps (by norm_num) (.inr (le_refl _)) hlt] at hx
      have hnext : ((steps + 1 : ℕ) : ℤ) - 1074 = steps - 1074 + 1 := by omega
      rw [hnext] at hx
      exact .finite hx (haround.carry (by omega))
  · rw [min_eq_right hge] at hx
    exact .infinite hx (hover hge)

/-- The numbers around zero reach as far as half of the least double. -/
theorem isNearest_zero (hnonneg : 0 ≤ q) (hle : q ≤ 1 / 2 * 2 ^ (-1074 : ℤ)) :
    IsNearest q (nearest false 0 1) := by
  have hbits : Binary.ofFloat (nearest false 0 1) = .finite false 0 (-1074) :=
    (ofFloat_ofBits (nearestBits_le 0 1)).trans rfl
  have hmargin : marginBelow 0 (-1074) = 1 / 2 := if_neg (by decide)
  have hpos : (0 : ℚ) < 2 ^ (-1074 : ℤ) := by positivity
  refine .finite hbits ?_
  rw [Around, if_pos (by decide), lowerEnd, upperEnd, hmargin, Nat.cast_zero, zero_add]
  generalize (2 : ℚ) ^ (-1074 : ℤ) = p at hpos hle
  exact ⟨by linarith, hle⟩

/-- Rounding a fraction finds the nearest double. -/
theorem isNearest_nearest (num : Nat) {den : Nat} (hden : 0 < den) :
    IsNearest (num / den) (nearest false num den) := by
  have hfloat : Binary.ofFloat (nearest false num den) = Binary.ofBits (nearestBits num den) :=
    ofFloat_ofBits (nearestBits_le num den)
  have hfinite := nearestBits_lt_iff num hden
  by_cases hnum : num = 0
  · have hsame : nearest false num den = nearest false 0 1 := by
      rw [nearest, nearest, nearestBits, nearestBits, if_pos hnum, if_pos rfl]
    rw [hsame, hnum, Nat.cast_zero, zero_div]
    exact isNearest_zero (le_refl _) (by positivity)
  rw [nearestBits, if_neg hnum] at hfloat hfinite
  dsimp only [Binary.fractionBits, Binary.lowestExponent, Nat.pow_eq] at hfloat hfinite
  obtain ⟨hlowest, hhigh, hfull⟩ := exponentOf_bounds hnum hden
  generalize exponentOf num den = e at hfloat hfinite hlowest hhigh hfull
  obtain ⟨steps, rfl⟩ : ∃ steps : ℕ, e = steps - 1074 := ⟨(e + 1074).toNat, by omega⟩
  -- the number in units of the last place
  have hvalue : (num / den : ℚ) =
      (overPower num den (steps - 1074)).1 / (overPower num den (steps - 1074)).2 *
        2 ^ (steps - 1074 : ℤ) := by
    rw [overPower_div, mul_assoc, ← zpow_add₀ (by norm_num), neg_add_cancel, zpow_zero, mul_one]
  have hpos := overPower_pos hden num (steps - 1074)
  generalize overPower num den (steps - 1074) = scaled at hfloat hfinite hvalue hpos
  obtain ⟨a, b⟩ := scaled
  dsimp only at hfloat hfinite hvalue hpos
  have hpow : (0 : ℚ) < 2 ^ (steps - 1074 : ℤ) := by positivity
  have hsteps : ((steps : ℤ) - 1074 - -1074).toNat = steps := by omega
  rw [hsteps] at hfloat hfinite
  rw [hvalue] at hhigh hfull hfinite ⊢
  replace hhigh := lt_of_mul_lt_mul_right hhigh hpow.le
  replace hfull := hfull.imp_right fun h => le_of_mul_le_mul_right h hpow
  have hover : 2047 * 2 ^ 52 ≤ steps * 2 ^ 52 + roundDiv a b →
      overflow ≤ (a / b * 2 ^ (steps - 1074 : ℤ) : ℚ) := by
    intro hge
    rw [min_eq_right hge] at hfinite
    exact not_lt.1 fun h => lt_irrefl _ (hfinite.2 h)
  refine isNearest_of_steps ((roundDiv_between hpos).1 hhigh) ?_ (around_roundDiv a hpos hfull) hfloat
    hover
  exact hfull.imp (by omega) (roundDiv_between hpos).2

/-! ### Decimals -/

/-- The powers of ten that are out of reach are below half of the least double. -/
theorem tiny_le : (10 : ℚ) ^ (-400 : ℤ) ≤ 1 / 2 * 2 ^ (-1074 : ℤ) := by
  have hpow : (2 : ℚ) ^ 1075 ≤ 10 ^ 400 :=
    calc (2 : ℚ) ^ 1075 ≤ 2 ^ (3 * 400) := pow_le_pow_right₀ (by norm_num) (by norm_num)
      _ = (2 ^ 3) ^ 400 := pow_mul _ _ _
      _ ≤ 10 ^ 400 := pow_le_pow_left₀ (by norm_num) (by norm_num) _
  have hhalf : (1 / 2 * 2 ^ (-1074 : ℤ) : ℚ) = 2 ^ (-1075 : ℤ) := by
    rw [show (-1074 : ℤ) = -1075 + 1 from rfl, zpow_add_one₀ (by norm_num)]
    generalize (2 : ℚ) ^ (-1075 : ℤ) = p
    ring
  rw [hhalf, zpow_neg, zpow_neg, zpow_ofNat, zpow_ofNat]
  exact inv_anti₀ (by positivity) hpow

/-- Rounding a decimal finds the nearest double. -/
theorem isNearest_ofScientific (digits : Nat) (exponent : Int) :
    IsNearest (digits * 10 ^ exponent) (ofScientific false digits exponent) := by
  unfold ofScientific
  split
  · next hsmall =>
    refine isNearest_zero (by positivity) ?_
    rcases hsmall with rfl | hsmall
    · rw [Nat.cast_zero, zero_mul]
      positivity
    · refine (scientific_le digits exponent).trans (le_trans ?_ tiny_le)
      unfold outOfReach at hsmall
      exact zpow_le_zpow_right₀ (by norm_num) (by omega)
  split
  · next hnonzero hlarge =>
    exact .infinite (by decide) (overflow_le_scientific (fun h => hnonzero (.inl h)) hlarge)
  · have hden : 0 < Nat.pow 10 (-exponent).toNat := Nat.pow_pos (by norm_num)
    have hvalue : (digits * 10 ^ exponent : ℚ) =
        (digits * Nat.pow 10 exponent.toNat : ℕ) / (Nat.pow 10 (-exponent).toNat : ℕ) := by
      rw [zpow_eq_div (by norm_num)]
      push_cast [Nat.pow_eq]
      rw [mul_div_assoc]
    rw [hvalue]
    exact isNearest_nearest _ hden

/-- A numeral is read as the nearest double to the number that it writes. -/
theorem isNearest_of_readFloat? {cs : List Char} (h : IsNumeral cs) (hx : readFloat? cs = some x) :
    IsNearest (numeralValue cs) x := by
  rw [h.readFloat?_eq, h.readUnsigned?_eq] at hx
  split at hx
  · cases hx
  · obtain rfl := Option.some.inj hx
    have hvalue : numeralValue cs =
        ofDigits (cs.filter Char.isDigit) * 10 ^ (-(places cs : ℤ)) := by
      rw [zpow_neg, zpow_natCast, ← div_eq_mul_inv, numeralValue]
    rw [hvalue]
    exact isNearest_ofScientific _ _

/-- And that is the only one. -/
theorem isNearest_iff_readFloat? {cs : List Char} (h : IsNumeral cs) (hdigit : HasDigit cs) :
    IsNearest (numeralValue cs) x ↔ readFloat? cs = some x := by
  refine ⟨fun hx => ?_, isNearest_of_readFloat? h⟩
  obtain ⟨y, hy⟩ := Option.isSome_iff_exists.1 ((isSome_readFloat?_iff h).2 hdigit)
  rw [hx.unique (isNearest_of_readFloat? h hy)]
  exact hy

/-- A numeral is read as a finite double exactly if the number is below the middle. -/
theorem isFinite_readFloat?_iff {cs : List Char} (h : IsNumeral cs) (hx : readFloat? cs = some x) :
    isFinite x = true ↔ numeralValue cs < overflow :=
  (isNearest_of_readFloat? h hx).isFinite_iff

end BehaviorTree.Decimal
