import BehaviorTree.Time

namespace BehaviorTree

/-!
# Comparing times

Of two doubles that are not NaN, one is less than the other or it is not, and then the other is at
most as great.  An elapsed time is never a NaN, whatever the clock reads.

* `not_lt_iff` — not to be less is to be at least, among numbers;
* `pos_of_le` — what is at least a positive number is positive;
* `isNumber_elapsed` — elapsed times are numbers;
* `elapsed_self` — no time has passed since the reading itself, whatever it is.
-/

open Float.Model (UnpackedFloat)

/-- The double is not a NaN. -/
def IsNumber (x : Float) : Prop := x.toModel.unpack ≠ .notANumber

theorem notANumber_compare (b : UnpackedFloat) : UnpackedFloat.notANumber.compare b = none := rfl

theorem compare_notANumber (a : UnpackedFloat) : a.compare .notANumber = none := by
  cases a <;> rfl

/-- Two numbers compare. -/
theorem exists_compare {a b : UnpackedFloat} (ha : a ≠ .notANumber) (hb : b ≠ .notANumber) :
    ∃ o, a.compare b = some o := by
  cases a with
  | notANumber => exact absurd rfl ha
  | infinity s => cases s <;> cases b <;> first | exact absurd rfl hb | exact ⟨_, rfl⟩
  | zero s =>
    cases b with
    | notANumber => exact absurd rfl hb
    | infinity t => cases t <;> exact ⟨_, rfl⟩
    | zero t => exact ⟨_, rfl⟩
    | finite t => cases t <;> exact ⟨_, rfl⟩
  | finite s =>
    cases b with
    | notANumber => exact absurd rfl hb
    | infinity t => cases s <;> cases t <;> exact ⟨_, rfl⟩
    | zero t => cases s <;> exact ⟨_, rfl⟩
    | finite t => cases s <;> cases t <;> exact ⟨_, rfl⟩

theorem compare_swap (a b : UnpackedFloat) : b.compare a = (a.compare b).map Ordering.swap := by
  cases a with
  | notANumber => cases b <;> rfl
  | infinity s =>
    cases b with
    | infinity t => cases s <;> cases t <;> rfl
    | notANumber => rfl
    | zero t => cases s <;> rfl
    | finite t => cases s <;> cases t <;> rfl
  | zero s =>
    cases b with
    | infinity t => cases t <;> rfl
    | notANumber => rfl
    | zero t => rfl
    | finite t => cases t <;> rfl
  | finite s m e hm =>
    cases b with
    | infinity t => cases s <;> cases t <;> rfl
    | notANumber => cases s <;> rfl
    | zero t => cases s <;> rfl
    | finite t n f hn =>
      -- of two negative numbers the one with the greater magnitude is less
      have hmagnitude : (compare f e).then (compare n m) =
          ((compare e f).then (compare m n)).swap := by
        rw [Ordering.swap_then, Int.compare_swap, Nat.compare_swap]
      cases s <;> cases t
      · exact congrArg (fun o => some o.swap) hmagnitude
      · rfl
      · rfl
      · exact congrArg some hmagnitude

/-- How two doubles compare; nothing when one of them is a NaN. -/
def order (x y : Float) : Option Ordering := x.toModel.unpack.compare y.toModel.unpack

theorem order_swap (x y : Float) : order y x = (order x y).map Ordering.swap := compare_swap _ _

theorem lt_iff {x y : Float} : x < y ↔ order x y = some .lt := by
  show decide (x.toModel < y.toModel) = true ↔ _
  rw [decide_eq_true_iff]
  exact beq_iff_eq

theorem le_iff {x y : Float} : x ≤ y ↔ (order x y).any Ordering.isLE = true := by
  show decide (x.toModel ≤ y.toModel) = true ↔ _
  rw [decide_eq_true_iff]
  rfl

theorem isNumber_of_le {x y : Float} (h : x ≤ y) : IsNumber x ∧ IsNumber y := by
  rw [le_iff, order] at h
  constructor
  · intro hx
    rw [hx, notANumber_compare] at h
    exact absurd h (by decide)
  · intro hy
    rw [hy, compare_notANumber] at h
    exact absurd h (by decide)

theorem le_of_lt {x y : Float} (h : x < y) : x ≤ y := by
  rw [le_iff, lt_iff.1 h]
  rfl

/-- Of two numbers the one is not less than the other exactly when the other is at most as great. -/
theorem not_lt_iff {x y : Float} (hx : IsNumber x) (hy : IsNumber y) : ¬ x < y ↔ y ≤ x := by
  obtain ⟨o, ho⟩ := exists_compare hx hy
  rw [lt_iff, le_iff, order_swap x y, order, ho]
  cases o <;> decide

/-- What is above zero. -/
theorem zero_compare_eq_lt_iff {a : UnpackedFloat} :
    (UnpackedFloat.zero .positive).compare a = some .lt ↔
      a = .infinity .positive ∨ ∃ m e hm, a = .finite .positive m e hm := by
  constructor
  · intro h
    cases a with
    | notANumber => exact absurd h nofun
    | infinity s =>
      cases s with
      | positive => exact .inl rfl
      | negative => exact absurd h nofun
    | zero s => cases s <;> exact absurd h nofun
    | finite s m e hm =>
      cases s with
      | positive => exact .inr ⟨m, e, hm, rfl⟩
      | negative => exact absurd h nofun
  · rintro (rfl | ⟨m, e, hm, rfl⟩)
    · rfl
    · rfl

/-- What is at least a positive number is positive. -/
theorem pos_of_le {x y : Float} (hx : 0.0 < x) (h : x ≤ y) : 0.0 < y := by
  have hzero : (0.0 : Float).toModel.unpack = .zero .positive := rfl
  rw [lt_iff, order, hzero, zero_compare_eq_lt_iff] at hx ⊢
  rw [le_iff, order] at h
  generalize x.toModel.unpack = a at hx h
  generalize y.toModel.unpack = b at h
  rcases hx with rfl | ⟨m, e, hm, rfl⟩
  · cases b with
    | infinity t =>
      cases t with
      | positive => exact .inl rfl
      | negative => exact absurd h (by decide)
    | notANumber | zero | finite => exact absurd h Bool.false_ne_true
  · cases b with
    | notANumber | zero => exact absurd h Bool.false_ne_true
    | infinity t =>
      cases t with
      | positive => exact .inl rfl
      | negative => exact absurd h Bool.false_ne_true
    | finite t n f hn =>
      cases t with
      | positive => exact .inr ⟨n, f, hn, rfl⟩
      | negative => exact absurd h Bool.false_ne_true

theorem isNumber_atLeast {floor : Float} (h : IsNumber floor) (x : Float) :
    IsNumber (atLeast floor x) := by
  unfold atLeast
  split
  · next hle => exact (isNumber_of_le hle).2
  · exact h

/-- An elapsed time is a number. -/
theorem isNumber_elapsed (now : Moment) (since : Float) : IsNumber (now.elapsed since) := by
  have hzero : (0.0 : Float) ≤ 0.0 := by decide
  exact isNumber_atLeast (isNumber_of_le hzero).1 _

/-- The difference of a float and itself is the positive zero, or not a number. -/
theorem unpacked_sub_self (spec : Float.Model.Format) (x : UnpackedFloat) :
    x.sub spec x = .zero .positive ∨ x.sub spec x = .notANumber := by
  cases x with
  | notANumber => exact .inr rfl
  | infinity s => cases s <;> exact .inr rfl
  | zero s => cases s <;> exact .inl rfl
  | finite s m e hm =>
    left
    show UnpackedFloat.normalize spec (_ - _) _ .positive = _
    rw [Int.sub_self]
    rfl

/-- No time has passed since a reading of the clock at that reading, even if it is infinite or a
    NaN. -/
theorem elapsed_self (now : Moment) : now.elapsed now.now = 0.0 := by
  have hsub : now.now - now.now = 0.0 ∨ ¬ (0.0 : Float) ≤ now.now - now.now := by
    let x := now.now.toModel.unpack
    have hmodel : now.now - now.now = .ofModel (.pack (x.sub .binary64 x)) := rfl
    rw [hmodel]
    rcases unpacked_sub_self .binary64 x with hzero | hnan
    · left
      rw [hzero]
      rfl
    · right
      rw [hnan]
      decide
  unfold Moment.elapsed atLeast
  rcases hsub with hzero | hnan
  · rw [hzero]
    decide
  · rw [if_neg hnan]

end BehaviorTree
