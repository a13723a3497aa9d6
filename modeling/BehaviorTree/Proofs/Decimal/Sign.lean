import BehaviorTree.Proofs.Decimal.Nearest

namespace BehaviorTree.Decimal

/-!
# Doubles without a sign

Doubles that compare as equal are the same double, except for the two zeros.  A numeral has no sign,
so it never reads as the negative zero.

* `unsigned_of_readFloat?`, `ne_nan_of_readFloat?` — what a numeral reads as has no sign and is no NaN;
* `Unsigned.eq_of_beq` — doubles without a sign that compare as equal are the same.
-/

/-- The bit of the sign is not set. -/
def Unsigned (x : Float) : Prop := x.toBits.toNat < 2 ^ 63

theorem Unsigned.ne_neg_zero {x : Float} (h : Unsigned x) : x ≠ -0 := by
  rintro rfl
  have hbits : (-0 : Float).toBits = 0x8000000000000000 := by decide
  rw [Unsigned, hbits] at h
  exact absurd h (by decide)

/-- Doubles without a sign that compare as equal are the same. -/
theorem Unsigned.eq_of_beq {x y : Float} (hx : Unsigned x) (hy : Unsigned y)
    (h : (x == y) = true) : x = y := by
  obtain ⟨-, -, heq | ⟨-, hneg⟩ | ⟨hneg, -⟩⟩ := Float.beq_iff_ne_nan_and_eq.1 h
  · exact heq
  · exact absurd hneg hy.ne_neg_zero
  · exact absurd hneg hx.ne_neg_zero

/-! ### What is read without a sign -/

/-- The nearest double to a number that is not negative has no sign. -/
theorem IsNearest.unsigned {q : ℚ} {x : Float} (h : IsNearest q x) : Unsigned x := by
  have hsign : Binary.ofFloat x = .infinite false ∨ ∃ m e, Binary.ofFloat x = .finite false m e := by
    cases h with
    | finite hx _ => exact .inr ⟨_, _, hx⟩
    | infinite hx _ => exact .inl hx
  have hlt := x.toBits.toNat_lt
  rw [Binary.ofFloat, Binary.ofBits_eq] at hsign
  unfold Unsigned
  generalize x.toBits.toNat = bits at hsign hlt
  by_contra hge
  have hbit : (bits / 2 ^ 63 % 2 == 1) = true := by
    rw [beq_iff_eq]
    omega
  rw [hbit] at hsign
  split_ifs at hsign <;> simp at hsign

/-- What a numeral reads as has no sign. -/
theorem unsigned_of_readFloat? {cs : List Char} (h : IsNumeral cs) {x : Float}
    (hx : readFloat? cs = some x) : Unsigned x :=
  (isNearest_of_readFloat? h hx).unsigned

/-- Nor is it a NaN. -/
theorem ne_nan_of_readFloat? {cs : List Char} (h : IsNumeral cs) {x : Float}
    (hx : readFloat? cs = some x) : x ≠ Float.nan := by
  have hnan : Binary.ofFloat Float.nan = .nan := by decide
  rintro rfl
  cases isNearest_of_readFloat? h hx with
  | finite hfinite _ => exact absurd (hnan.symm.trans hfinite) nofun
  | infinite hinfinite _ => exact absurd (hnan.symm.trans hinfinite) nofun

end BehaviorTree.Decimal
