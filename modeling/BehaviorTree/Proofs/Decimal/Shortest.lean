import BehaviorTree.Decimal.Shortest
import BehaviorTree.Proofs.Decimal.Value

namespace BehaviorTree.Decimal

/-!
# Decimals that round to a double

The decimal that is found for a double is one of the rational numbers around the double, and no number
is around two doubles.

* `Around` — the numbers from halfway to the double below up to halfway to the double above, the ends
  included if the significand is even;
* `shortest_around` — the search ends with such a number;
* `eq_of_around` — a number is around one double only.
-/

/-- How far below a double, in units of its last place, the numbers around it begin.  Below a power of
    two the doubles lie closer together. -/
def marginBelow (significand : Nat) (exponent : Int) : ℚ :=
  if significand = 2 ^ 52 ∧ -1074 < exponent then 1 / 4 else 1 / 2

/-- The lower end of the numbers around a double. -/
def lowerEnd (significand : Nat) (exponent : Int) : ℚ :=
  (significand - marginBelow significand exponent) * 2 ^ exponent

/-- The upper end of the numbers around a double. -/
def upperEnd (significand : Nat) (exponent : Int) : ℚ := (significand + 1 / 2) * 2 ^ exponent

/-- A number lies around a double. -/
def Around (significand : Nat) (exponent : Int) (q : ℚ) : Prop :=
  if significand % 2 = 0 then
    lowerEnd significand exponent ≤ q ∧ q ≤ upperEnd significand exponent
  else lowerEnd significand exponent < q ∧ q < upperEnd significand exponent

variable {m m' : Nat} {e e' : Int} {q : ℚ}

theorem Around.lowerEnd_le (h : Around m e q) : lowerEnd m e ≤ q := by
  unfold Around at h
  split at h
  · exact h.1
  · exact h.1.le

theorem Around.le_upperEnd (h : Around m e q) : q ≤ upperEnd m e := by
  unfold Around at h
  split at h
  · exact h.2
  · exact h.2.le

/-- The ends do not count at an odd significand. -/
theorem Around.strict (h : Around m e q) (hodd : m % 2 = 1) :
    lowerEnd m e < q ∧ q < upperEnd m e := by
  rwa [Around, if_neg (by omega)] at h

theorem marginBelow_le (m : Nat) (e : Int) : marginBelow m e ≤ 1 / 2 := by
  unfold marginBelow
  split <;> norm_num

/-! ### The search -/

namespace Neighbourhood

variable {n : Neighbourhood}

/-- A point of a grid that is chosen is held. -/
theorem holds_of_gridPoint? {tie : Tie} {width t : Nat} (h : n.gridPoint? tie width = some t) :
    n.holds (t * width) = true := by
  unfold gridPoint? at h
  dsimp only at h
  split at h
  · next hlow _ =>
    obtain rfl := Option.some.inj h
    exact hlow
  · next _ hhigh =>
    obtain rfl := Option.some.inj h
    exact hhigh
  · next hlow hhigh =>
    -- whichever of the two is nearer
    have hpoint : t = n.value / width ∨ t = n.value / width + 1 := by
      split at h
      · exact .inl (Option.some.inj h).symm
      split at h
      · exact .inr (Option.some.inj h).symm
      split at h
      · exact .inr (Option.some.inj h).symm
      · split at h
        · exact .inl (Option.some.inj h).symm
        · exact .inr (Option.some.inj h).symm
    rcases hpoint with rfl | rfl
    · exact hlow
    · exact hhigh
  · exact absurd h nofun

/-- The search ends at the latest with the double itself. -/
theorem holds_search (hvalue : n.holds n.value = true) (hquarter : 4 ∣ n.value) (tie : Tie)
    (step : Nat) :
    n.holds ((n.search tie step).1 * (4 * 10 ^ (n.search tie step).2)) = true := by
  induction step with
  | zero =>
    rw [search, pow_zero, mul_one, Nat.div_mul_cancel hquarter]
    exact hvalue
  | succ step ih =>
    rw [search]
    split
    · next t hpoint => exact holds_of_gridPoint? hpoint
    · exact ih

/-- One unit of a neighbourhood is a quarter of this power of ten. -/
theorem unit_eq (exponent : Int) :
    ((Nat.pow 5 (decimals exponent) * Nat.pow 2 exponent.toNat : ℕ) : ℚ) =
      2 ^ exponent * 10 ^ decimals exponent := by
  have hten : (10 : ℚ) ^ decimals exponent = 2 ^ decimals exponent * 5 ^ decimals exponent := by
    rw [← mul_pow]
    norm_num
  rw [zpow_eq_div (by norm_num), hten, decimals]
  push_cast [Nat.pow_eq]
  field_simp

/-- A neighbourhood holds the numbers around the double. -/
theorem holds_around_iff (hm : 0 < m) (x : Nat) :
    (around m e).holds x = true ↔ Around m e (x / (4 * 10 ^ decimals e)) := by
  have hunit := unit_eq e
  have hpos : (0 : ℚ) < 4 * 10 ^ decimals e := by positivity
  obtain ⟨below, hbelow, hle, hmargin⟩ : ∃ below : Nat,
      (if m = Nat.pow 2 Binary.fractionBits ∧ Binary.lowestExponent < e then 1 else 2) = below ∧
        below ≤ 2 ∧ marginBelow m e = below / 4 := by
    by_cases hpower : m = 2 ^ 52 ∧ -1074 < e
    · exact ⟨1, if_pos hpower, by norm_num, by rw [marginBelow, if_pos hpower]; norm_num⟩
    · exact ⟨2, if_neg hpower, by norm_num, by rw [marginBelow, if_neg hpower]; norm_num⟩
  have hlow : (((4 * m - below) * (Nat.pow 5 (decimals e) * Nat.pow 2 e.toNat) : ℕ) : ℚ) =
      lowerEnd m e * (4 * 10 ^ decimals e) := by
    rw [Nat.cast_mul, hunit, Nat.cast_sub (by omega), lowerEnd, hmargin]
    push_cast
    ring
  have hhigh : (((4 * m + 2) * (Nat.pow 5 (decimals e) * Nat.pow 2 e.toNat) : ℕ) : ℚ) =
      upperEnd m e * (4 * 10 ^ decimals e) := by
    rw [Nat.cast_mul, hunit, upperEnd]
    push_cast
    ring
  unfold holds around Around
  dsimp only
  rw [hbelow]
  by_cases heven : m % 2 = 0
  · simp only [heven, decide_true, if_true, Bool.and_eq_true, decide_eq_true_eq]
    rw [le_div_iff₀ hpos, div_le_iff₀ hpos, ← hlow, ← hhigh, Nat.cast_le, Nat.cast_le]
  · simp only [heven, decide_false, Bool.false_eq_true, if_false, Bool.and_eq_true,
      decide_eq_true_eq]
    rw [lt_div_iff₀ hpos, div_lt_iff₀ hpos, ← hlow, ← hhigh, Nat.cast_lt, Nat.cast_lt]

theorem value_around (m : Nat) (e : Int) : Around m e (m * 2 ^ e) := by
  have hpos : (0 : ℚ) < 2 ^ e := by positivity
  have hmargin : 0 < marginBelow m e := by
    unfold marginBelow
    split <;> norm_num
  have hlow : lowerEnd m e < m * 2 ^ e := by
    unfold lowerEnd
    gcongr
    exact sub_lt_self _ hmargin
  have hhigh : m * 2 ^ e < upperEnd m e := by
    unfold upperEnd
    gcongr
    norm_num
  unfold Around
  split
  · exact ⟨hlow.le, hhigh.le⟩
  · exact ⟨hlow, hhigh⟩

/-- A neighbourhood holds the double itself, in its own units. -/
theorem holds_value (hm : 0 < m) : (around m e).holds (around m e).value = true := by
  rw [holds_around_iff hm]
  have hvalue : (((around m e).value : ℕ) : ℚ) / (4 * 10 ^ decimals e) = m * 2 ^ e := by
    have hunit := unit_eq e
    rw [div_eq_iff (by positivity)]
    unfold around
    rw [Nat.cast_mul, hunit]
    push_cast
    ring
  rw [hvalue]
  exact value_around m e

end Neighbourhood

/-- The number that a decimal writes. -/
def Scientific.value (d : Scientific) : ℚ := d.digits * 10 ^ d.exponent

/-- The decimal that the search ends with is around the double. -/
theorem shortest_around (tie : Tie) (hm : 0 < m) (e : Int) :
    Around m e (shortest tie m e).value := by
  have hquarter : 4 ∣ (Neighbourhood.around m e).value := by
    unfold Neighbourhood.around
    exact Dvd.dvd.mul_right (Dvd.intro m rfl) _
  have hholds := Neighbourhood.holds_search (Neighbourhood.holds_value hm) hquarter tie
    (Neighbourhood.around m e).coarsest
  rw [Neighbourhood.holds_around_iff hm] at hholds
  unfold shortest Scientific.value
  dsimp only
  generalize (Neighbourhood.around m e).search tie _ = found at hholds
  obtain ⟨t, step⟩ := found
  -- in quarters of the finest grid that is needed
  have hvalue : ((t * (4 * 10 ^ step) : ℕ) : ℚ) / (4 * 10 ^ Neighbourhood.decimals e) =
      t * 10 ^ (step - Neighbourhood.decimals e : ℤ) := by
    rw [zpow_sub₀ (by norm_num), zpow_natCast, zpow_natCast]
    push_cast
    field_simp
  rw [← hvalue]
  exact hholds

/-! ### Doubles do not overlap -/

/-- The significand and the exponent of a double: as many bits as there is room for. -/
structure IsCanonical (m : Nat) (e : Int) : Prop where
  lt : m < 2 ^ 53
  lowest : -1074 ≤ e
  full : 2 ^ 52 ≤ m ∨ e = -1074

/-- No number is around two doubles, if one of them ends where the other begins or earlier.  The place
    where they meet belongs to both when both significands are even, so they must not meet then. -/
theorem not_around_of_ends (hle : upperEnd m e ≤ lowerEnd m' e')
    (hgap : m % 2 = 0 → m' % 2 = 0 → upperEnd m e < lowerEnd m' e') (h : Around m e q)
    (h' : Around m' e' q) : False := by
  rcases Nat.mod_two_eq_zero_or_one m with heven | hodd
  · rcases Nat.mod_two_eq_zero_or_one m' with heven' | hodd'
    · exact absurd (h'.lowerEnd_le.trans h.le_upperEnd) (not_le.2 (hgap heven heven'))
    · exact absurd ((h'.strict hodd').1.trans_le h.le_upperEnd) (not_lt.2 hle)
  · exact absurd (h'.lowerEnd_le.trans_lt (h.strict hodd).2) (not_lt.2 hle)

/-- The numbers around a double end before those around a greater one with the same exponent begin. -/
theorem not_around_of_significand_lt (hlt : m < m') (h : Around m e q) (h' : Around m' e q) :
    False := by
  have hpos : (0 : ℚ) < 2 ^ e := by positivity
  have hmargin := marginBelow_le m' e
  refine not_around_of_ends ?_ ?_ h h'
  · have hnext : (m : ℚ) + 1 ≤ m' := by exact_mod_cast hlt
    unfold upperEnd lowerEnd
    gcongr
    linarith
  · intro heven heven'
    have hnext : (m : ℚ) + 2 ≤ m' := by exact_mod_cast (show m + 2 ≤ m' by omega)
    unfold upperEnd lowerEnd
    gcongr
    linarith

/-- The numbers around a double end before those around one with a greater exponent begin. -/
theorem not_around_of_exponent_lt (hm : IsCanonical m e) (hm' : IsCanonical m' e') (hlt : e < e')
    (h : Around m e q) (h' : Around m' e' q) : False := by
  have hpos : (0 : ℚ) < 2 ^ e := by positivity
  have hlowest := hm.lowest
  have hfull : 2 ^ 52 ≤ m' := hm'.full.resolve_right (by omega)
  -- the least double with a greater exponent has the closer double below it
  have hlow : (2 ^ 53 - 1 / 2) * 2 ^ e ≤ lowerEnd m' e' := by
    have hscale : (2 : ℚ) ^ e * 2 ≤ 2 ^ e' := by
      rw [← zpow_add_one₀ (by norm_num)]
      exact zpow_le_zpow_right₀ (by norm_num) (by omega)
    have hstart : (2 : ℚ) ^ 52 - 1 / 4 ≤ m' - marginBelow m' e' := by
      have hmargin := marginBelow_le m' e'
      rcases hfull.eq_or_lt with heq | hgt
      · rw [marginBelow, if_pos ⟨heq.symm, by omega⟩, ← heq]
        push_cast
        norm_num
      · have hnext : (2 : ℚ) ^ 52 + 1 ≤ m' := by exact_mod_cast hgt
        linarith
    calc ((2 : ℚ) ^ 53 - 1 / 2) * 2 ^ e
        = (2 ^ 52 - 1 / 4) * (2 ^ e * 2) := by ring
      _ ≤ (m' - marginBelow m' e') * 2 ^ e' := by gcongr
  have hlt' := hm.lt
  refine not_around_of_ends (le_trans ?_ hlow) (fun heven _ => lt_of_lt_of_le ?_ hlow) h h'
  · have hbelow : (m : ℚ) + 1 ≤ 2 ^ 53 := by exact_mod_cast hlt'
    unfold upperEnd
    gcongr
    linarith
  · have hbelow : (m : ℚ) + 2 ≤ 2 ^ 53 := by exact_mod_cast (show m + 2 ≤ 2 ^ 53 by omega)
    unfold upperEnd
    gcongr
    linarith

/-- A number is around one double only. -/
theorem eq_of_around (hm : IsCanonical m e) (hm' : IsCanonical m' e') (h : Around m e q)
    (h' : Around m' e' q) : m = m' ∧ e = e' := by
  rcases lt_trichotomy e e' with hlt | rfl | hgt
  · exact (not_around_of_exponent_lt hm hm' hlt h h').elim
  · rcases lt_trichotomy m m' with hlt | rfl | hgt
    · exact (not_around_of_significand_lt hlt h h').elim
    · exact ⟨rfl, rfl⟩
    · exact (not_around_of_significand_lt hgt h' h).elim
  · exact (not_around_of_exponent_lt hm' hm hgt h' h).elim

end BehaviorTree.Decimal
