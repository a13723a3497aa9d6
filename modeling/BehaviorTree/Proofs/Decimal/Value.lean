import BehaviorTree.Decimal.Binary
import Mathlib

namespace BehaviorTree.Decimal

open Float.Model (UnpackedFloat Format)
open Float.Model.UnpackedFloat (Sign unpackSign unpackExponent unpackMantissa)

/-!
# The value of a double

A finite double is a rational number, `value?`, which is taken here from the unpacked form of the double
and not from the fields of its bits.

* `value?_eq` — the fields of the bits say the same;
* `toInt?_eq_some_iff` — `toInt?` finds an integer exactly in the doubles that have it as their value;
* `exists_int_of_value?` — a double of at least `2 ^ 53` is an integer.
-/

/-- The rational number that an unpacked double stands for.  Infinities and NaNs stand for none. -/
def unpackedValue? : UnpackedFloat → Option ℚ
  | .finite sign mantissa exponent _ => some (sign.apply mantissa * 2 ^ exponent)
  | .zero _ => some 0
  | .infinity _ | .notANumber => none

/-- The exact value of a double. -/
def value? (x : Float) : Option ℚ := unpackedValue? x.toModel.unpack

/-- A natural number with a sign. -/
def signed (negative : Bool) (n : Nat) : Int := if negative then -n else n

theorem signed_zero (negative : Bool) : signed negative 0 = 0 := by
  cases negative <;> rfl

theorem signed_mul (negative : Bool) (n : Nat) (q : ℚ) :
    (signed negative n : ℚ) * q = if negative then -(n * q) else n * q := by
  cases negative <;> simp [signed]

/-- The same from the parts of a double. -/
def Binary.value? : Binary → Option ℚ
  | .finite negative significand exponent => some (signed negative significand * 2 ^ exponent)
  | .infinite _ | .nan => none

/-! ### The fields of the bits -/

theorem toNat_unpackMantissa (b : BitVec 64) :
    (@unpackMantissa .binary64 b).toNat = b.toNat % 2 ^ 52 := by
  unfold unpackMantissa
  simp

theorem toNat_unpackExponent (b : BitVec 64) :
    (@unpackExponent .binary64 b).toNat = b.toNat / 2 ^ 52 % 2 ^ 11 := by
  unfold unpackExponent
  simp [Nat.shiftRight_eq_div_pow]

theorem toNat_unpackSign (b : BitVec 64) :
    (@unpackSign .binary64 b).toNat = b.toNat / 2 ^ 63 % 2 := by
  unfold unpackSign
  simp [Nat.shiftRight_eq_div_pow]

theorem unpackMantissa_eq_zero_iff (b : BitVec 64) :
    @unpackMantissa .binary64 b = 0#_ ↔ b.toNat % 2 ^ 52 = 0 := by
  rw [← toNat_unpackMantissa, ← BitVec.toNat_inj]
  rfl

theorem unpackExponent_eq_zero_iff (b : BitVec 64) :
    @unpackExponent .binary64 b = 0#_ ↔ b.toNat / 2 ^ 52 % 2 ^ 11 = 0 := by
  rw [← toNat_unpackExponent, ← BitVec.toNat_inj]
  rfl

theorem unpackExponent_eq_neg_one_iff (b : BitVec 64) :
    @unpackExponent .binary64 b = -1#_ ↔ b.toNat / 2 ^ 52 % 2 ^ 11 = 2047 := by
  rw [← toNat_unpackExponent, ← BitVec.toNat_inj]
  rfl

theorem apply_ofBitVec (s : BitVec 1) (n : Nat) :
    (Sign.ofBitVec s).apply n = signed (s.toNat == 1) n := by
  obtain rfl | rfl : s = 0#1 ∨ s = 1#1 := by
    revert s
    decide
  · rfl
  · rfl

theorem Binary.ofBits_eq (bits : Nat) :
    ofBits bits =
      if bits / 2 ^ 52 % 2 ^ 11 = 2047 then
        if bits % 2 ^ 52 = 0 then infinite (bits / 2 ^ 63 % 2 == 1) else nan
      else if bits / 2 ^ 52 % 2 ^ 11 = 0 then
        finite (bits / 2 ^ 63 % 2 == 1) (bits % 2 ^ 52) lowestExponent
      else
        finite (bits / 2 ^ 63 % 2 == 1) (2 ^ 52 + bits % 2 ^ 52)
          (lowestExponent + (bits / 2 ^ 52 % 2 ^ 11 - 1 : Nat)) :=
  rfl

/-- The fields of the bits say what the value of a double is. -/
theorem value?_eq (x : Float) : value? x = (Binary.ofFloat x).value? := by
  show unpackedValue? (UnpackedFloat.unpack .binary64 x.toBits.toBitVec) =
    (Binary.ofBits x.toBits.toBitVec.toNat).value?
  generalize x.toBits.toBitVec = b
  have hsign := toNat_unpackSign b
  have hexponent := toNat_unpackExponent b
  have hmantissa := toNat_unpackMantissa b
  have hbias : (Format.binary64.exponentBias + Format.binary64.mantissaBitsWithoutImplicit : ℤ) =
      1075 := by decide
  rw [Binary.ofBits_eq]
  simp only [UnpackedFloat.unpack, unpackExponent_eq_neg_one_iff b, unpackExponent_eq_zero_iff b,
    unpackMantissa_eq_zero_iff b, hbias]
  by_cases hinfinite : b.toNat / 2 ^ 52 % 2 ^ 11 = 2047
  · rw [if_pos hinfinite, if_pos hinfinite]
    split <;> rfl
  rw [if_neg hinfinite, if_neg hinfinite]
  by_cases hlowest : b.toNat / 2 ^ 52 % 2 ^ 11 = 0
  · rw [if_pos hlowest, if_pos hlowest]
    split
    · next hzero => rw [unpackedValue?, Binary.value?, hzero, signed_zero, Int.cast_zero, zero_mul]
    · rw [unpackedValue?, Binary.value?, apply_ofBitVec, hsign, hmantissa, hexponent, hlowest]
      rfl
  · -- the leading bit of a significand is not stored
    have hleading : (1#1 ++ @unpackMantissa .binary64 b).toNat = 2 ^ 52 + b.toNat % 2 ^ 52 := by
      rw [BitVec.toNat_append, ← Nat.shiftLeft_add_eq_or_of_lt (BitVec.isLt _), hmantissa]
      rfl
    have hshift : (b.toNat / 2 ^ 52 % 2 ^ 11 : ℕ) - (1075 : ℤ) =
        Binary.lowestExponent + (b.toNat / 2 ^ 52 % 2 ^ 11 - 1 : ℕ) := by
      unfold Binary.lowestExponent
      omega
    rw [if_neg hlowest, if_neg hlowest, unpackedValue?, Binary.value?, apply_ofBitVec, hsign,
      hexponent, hleading, hshift]

/-- Putting a double together keeps its bits, except that all NaNs become one. -/
theorem toBits_ofBits (b : UInt64) :
    (Float.ofBits b).toBits = b ∨
      b.toNat / 2 ^ 52 % 2 ^ 11 = 2047 ∧ b.toNat % 2 ^ 52 ≠ 0 ∧
        (Float.ofBits b).toBits = 0x7FF8000000000000 := by
  have hpacked := @UnpackedFloat.pack_unpack Format.binary64 b.toBitVec (by decide)
  have hbits : (Float.ofBits b).toBits.toBitVec =
      UnpackedFloat.pack Format.binary64 (UnpackedFloat.unpack Format.binary64 b.toBitVec) := rfl
  rw [hpacked] at hbits
  split at hbits
  · next hnan =>
    simp only [UnpackedFloat.isNaNBits, decide_eq_true_eq] at hnan
    refine .inr ⟨(unpackExponent_eq_neg_one_iff b.toBitVec).1 hnan.1, ?_, ?_⟩
    · exact fun hzero => hnan.2 ((unpackMantissa_eq_zero_iff b.toBitVec).2 hzero)
    · apply UInt64.toBitVec_inj.1
      rw [hbits]
      decide
  · exact .inl (UInt64.toBitVec_inj.1 hbits)

/-- A double has at most 53 bits of significand. -/
theorem significand_lt {x : Float} {negative : Bool} {significand : Nat} {exponent : Int}
    (h : Binary.ofFloat x = .finite negative significand exponent) : significand < 2 ^ 53 := by
  rw [Binary.ofFloat, Binary.ofBits_eq] at h
  split at h
  · split at h <;> cases h
  · split at h <;> cases h <;> omega

/-! ### Integers -/

/-- A power of an integral exponent, from two of natural exponents. -/
theorem zpow_eq_div {b : ℚ} (hb : b ≠ 0) (exponent : Int) :
    b ^ exponent = b ^ exponent.toNat / b ^ (-exponent).toNat := by
  rw [eq_div_iff (pow_ne_zero _ hb), ← zpow_natCast, ← zpow_natCast, ← zpow_add₀ hb]
  congr 1
  omega

/-- A fraction over a power of two, as a rational number. -/
theorem overPower_div (num den : Nat) (exponent : Int) :
    ((overPower num den exponent).1 / (overPower num den exponent).2 : ℚ) =
      num / den * 2 ^ (-exponent) := by
  rw [zpow_eq_div (by norm_num), neg_neg, overPower, div_mul_div_comm]
  push_cast [Nat.pow_eq]
  rfl

theorem overPower_pos {den : Nat} (hden : 0 < den) (num : Nat) (exponent : Int) :
    0 < (overPower num den exponent).2 :=
  Nat.mul_pos hden (Nat.two_pow_pos _)

/-- A quotient is an integer exactly if there is no remainder. -/
theorem dvd_of_div_eq {num den : Nat} (hden : 0 < den) {n : Int} (h : (num / den : ℚ) = n) :
    den ∣ num := by
  rw [div_eq_iff (Nat.cast_ne_zero.2 hden.ne')] at h
  have hnum : (num : ℤ) = n * den := by exact_mod_cast h
  exact Int.natCast_dvd_natCast.1 (hnum ▸ dvd_mul_left (den : ℤ) n)

/-- The integer of a double is its value. -/
theorem toInt?_eq_some_iff {x : Float} {n : Int} : toInt? x = some n ↔ value? x = some (n : ℚ) := by
  rw [value?_eq, toInt?]
  cases Binary.ofFloat x with
  | nan | infinite negative => simp [Binary.value?]
  | finite negative significand exponent =>
    have hvalue := overPower_div significand 1 (-exponent)
    have hpos := overPower_pos Nat.one_pos significand (-exponent)
    rw [Nat.cast_one, div_one, neg_neg] at hvalue
    simp only [Binary.value?, signed_mul, ← hvalue]
    generalize overPower significand 1 (-exponent) = r at hpos
    obtain ⟨num, den⟩ := r
    by_cases hdvd : den ∣ num
    · obtain ⟨k, rfl⟩ := hdvd
      have hquotient : ((den * k : ℕ) / den : ℚ) = (k : ℤ) := by
        rw [Nat.cast_mul, mul_div_cancel_left₀ _ (Nat.cast_ne_zero.2 hpos.ne')]
        rfl
      simp only [Nat.mul_mod_right, if_true, Nat.mul_div_cancel_left k hpos, hquotient]
      cases negative <;> simp <;> norm_cast
    · simp only [if_neg fun h => hdvd (Nat.dvd_of_mod_eq_zero h)]
      refine iff_of_false nofun fun h => hdvd ?_
      cases negative with
      | false => exact dvd_of_div_eq hpos (Option.some.inj h)
      | true =>
        have hneg : (num / den : ℚ) = (-n : ℤ) := by
          rw [Int.cast_neg, ← Option.some.inj h]
          exact (neg_neg _).symm
        exact dvd_of_div_eq hpos hneg

/-- A double of at least `2 ^ 53` is an integer, since its significand is smaller. -/
theorem exists_int_of_value? {x : Float} {q : ℚ} (hx : value? x = some q) (hq : 2 ^ 53 ≤ |q|) :
    ∃ n : ℤ, q = n := by
  rw [value?_eq] at hx
  cases h : Binary.ofFloat x with
  | nan | infinite negative =>
    rw [h] at hx
    cases hx
  | finite negative significand exponent =>
    rw [h] at hx
    obtain rfl := Option.some.inj hx
    have hlt : (significand : ℚ) < 2 ^ 53 := by exact_mod_cast significand_lt h
    have hexponent : 0 ≤ exponent := by
      by_contra hneg
      have hle : (2 : ℚ) ^ exponent ≤ 1 := zpow_le_one_of_nonpos₀ (by norm_num) (by omega)
      have habs : |(signed negative significand : ℚ) * 2 ^ exponent| = significand * 2 ^ exponent := by
        rw [signed_mul]
        cases negative <;> simp
      rw [habs] at hq
      have hsmall : (significand : ℚ) * 2 ^ exponent ≤ significand :=
        mul_le_of_le_one_right (Nat.cast_nonneg _) hle
      linarith
    obtain ⟨e, rfl⟩ := Int.eq_ofNat_of_zero_le hexponent
    exact ⟨signed negative significand * 2 ^ e, by push_cast; rfl⟩

end BehaviorTree.Decimal
