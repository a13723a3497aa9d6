import BehaviorTree.Proofs.Decimal.Numeral
import Mathlib

namespace BehaviorTree.Decimal

/-!
# Integers that are read and integers that are clamped

An integer comes to a word of 64 bits in two ways.  A text is refused if it writes an integer beyond the
words, while the clamp moves such an integer to the nearest word.

* `readInt?_eq_some_iff`, `readInt64?_eq_some_iff` — what a text has to be like to be read as an integer;
* `clampInt64_eq_iff` — the clamp moves the integers that are `Beyond` the words.
-/

/-- A text that writes an integer: digits, at least one, after an optional sign. -/
def WritesInt (cs : List Char) (n : Int) : Prop :=
  ∃ digits, digits ≠ [] ∧ (∀ c ∈ digits, c.isDigit = true) ∧
    ((cs = digits ∨ cs = '+' :: digits) ∧ n = ofDigits digits ∨
      cs = '-' :: digits ∧ n = -ofDigits digits)

/-- Digits have no sign to be cut off. -/
theorem cutSign_of_digits {digits : List Char} (h : ∀ c ∈ digits, c.isDigit = true) :
    cutSign digits = (false, digits) := by
  refine IsNumeral.cutSign_eq ⟨fun c hc => .inl (h c hc), ?_⟩
  have hpoint : '.' ∉ digits := fun hmem => absurd (h _ hmem) (by decide)
  rw [List.count_eq_zero_of_not_mem hpoint]
  exact Nat.zero_le 1

theorem readInt?_of_cutSign {cs digits : List Char} {negative : Bool}
    (h : cutSign cs = (negative, digits)) {n : Int} :
    readInt? cs = some n ↔ digits ≠ [] ∧ (∀ c ∈ digits, c.isDigit = true) ∧
      n = if negative then -(ofDigits digits : ℤ) else ofDigits digits := by
  have hdigits : (!digits.isEmpty && digits.all Char.isDigit) = true ↔
      digits ≠ [] ∧ ∀ c ∈ digits, c.isDigit = true := by
    simp only [Bool.and_eq_true, Bool.not_eq_true', List.isEmpty_eq_false_iff, List.all_eq_true]
  simp only [readInt?, h]
  split
  · next hread =>
    rw [Option.some.injEq, eq_comm]
    exact ⟨fun hn => ⟨(hdigits.1 hread).1, (hdigits.1 hread).2, hn⟩, fun hn => hn.2.2⟩
  · next hread =>
    exact iff_of_false nofun fun hn => hread (hdigits.2 ⟨hn.1, hn.2.1⟩)

/-- `readInt?` reads the texts that write integers. -/
theorem readInt?_eq_some_iff {cs : List Char} {n : Int} : readInt? cs = some n ↔ WritesInt cs n := by
  constructor
  · intro h
    have hcut : cutSign cs = ((cutSign cs).1, (cutSign cs).2) := rfl
    obtain ⟨hne, hall, hn⟩ := (readInt?_of_cutSign hcut).1 h
    refine ⟨_, hne, hall, ?_⟩
    revert hn
    unfold cutSign
    split
    · exact fun hn => .inr ⟨rfl, hn⟩
    · exact fun hn => .inl ⟨.inr rfl, hn⟩
    · exact fun hn => .inl ⟨.inl rfl, hn⟩
  · rintro ⟨digits, hne, hall, ⟨rfl | rfl, hn⟩ | ⟨rfl, hn⟩⟩
    · exact (readInt?_of_cutSign (cutSign_of_digits hall)).2 ⟨hne, hall, hn⟩
    · exact (readInt?_of_cutSign rfl).2 ⟨hne, hall, hn⟩
    · exact (readInt?_of_cutSign rfl).2 ⟨hne, hall, hn⟩

/-- `readInt64?` reads those that write a word. -/
theorem readInt64?_eq_some_iff {cs : List Char} {k : Int64} :
    readInt64? cs = some k ↔ WritesInt cs k.toInt := by
  rw [← readInt?_eq_some_iff, readInt64?, Option.bind_eq_some_iff]
  constructor
  · rintro ⟨n, hn, h⟩
    split at h
    · next hrange =>
      obtain rfl := Option.some.inj h
      rw [Int64.toInt_minValue, Int64.toInt_maxValue] at hrange
      rwa [Int64.toInt_ofInt_of_le hrange.1 (by omega)]
    · cases h
  · intro h
    refine ⟨k.toInt, h, ?_⟩
    rw [if_pos ⟨Int64.minValue_le_toInt k, Int64.toInt_le k⟩, Int64.ofInt_toInt]

/-- A number is beyond the words of 64 bits, and `k` is the last one of them on its side. -/
def Beyond (k : Int64) (q : ℚ) : Prop :=
  k = .maxValue ∧ k.toInt < q ∨ k = .minValue ∧ q < k.toInt

/-- The clamp moves integers beyond the words to the last words, and no other integers. -/
theorem clampInt64_eq_iff {n : Int} {k : Int64} : clampInt64 n = k ↔ n = k.toInt ∨ Beyond k n := by
  have hclamped : (clampInt64 n).toInt = min (max n (-2 ^ 63)) (2 ^ 63 - 1) := by
    rw [clampInt64, Int64.toInt_minValue, Int64.toInt_maxValue]
    exact Int64.toInt_ofInt_of_le (by omega) (by omega)
  have hlow := Int64.le_toInt k
  have hhigh := Int64.toInt_lt k
  rw [Beyond, Int.cast_lt, Int.cast_lt, ← Int64.toInt_inj, hclamped, ← Int64.toInt_inj,
    ← Int64.toInt_inj, Int64.toInt_minValue, Int64.toInt_maxValue]
  omega

theorem Beyond.two_pow_le_abs {k : Int64} {q : ℚ} (h : Beyond k q) : 2 ^ 53 ≤ |q| := by
  rcases h with ⟨rfl, hq⟩ | ⟨rfl, hq⟩
  · rw [Int64.toInt_maxValue] at hq
    push_cast at hq
    exact le_abs.2 (.inl (by linarith))
  · rw [Int64.toInt_minValue] at hq
    push_cast at hq
    exact le_abs.2 (.inr (by linarith))

end BehaviorTree.Decimal
