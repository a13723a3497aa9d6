import BehaviorTree.Decimal.Notation
import BehaviorTree.Proofs.Decimal.Numeral
import BehaviorTree.Proofs.Decimal.Shortest

namespace BehaviorTree.Decimal

/-!
# Written numbers tell doubles apart

In the plain layout a double is written as a numeral, with a sign if it is negative, or as a word if it
is not finite.

* `positionalForm_plain` — a decimal is written as a numeral of its value;
* `eq_nan_of_ofFloat`, `ofFloat_injective` — the parts of a double tell it apart from all others, and
  there is one NaN;
* `render_injective` — no two doubles besides the NaN are written alike.
-/

/-! ### Digits -/

theorem isDigit_of_mem_digitsOf {n : Nat} {c : Char} (h : c ∈ digitsOf n) : c.isDigit = true :=
  Nat.isDigit_of_mem_toDigits (by norm_num) (by norm_num) h

theorem isDigit_of_mem_zeros {n : Nat} {c : Char} (h : c ∈ zeros n) : c.isDigit = true := by
  rw [List.eq_of_mem_replicate h]
  decide

theorem ofDigits_digitsOf (n : Nat) : ofDigits (digitsOf n) = n :=
  Nat.ofDigitChars_toDigits (by norm_num) (by norm_num)

theorem ofDigits_append_zeros (ds : List Char) (n : Nat) :
    ofDigits (ds ++ zeros n) = ofDigits ds * 10 ^ n := by
  induction n with
  | zero => simp [zeros]
  | succ n ih =>
    have hzero : digitValue '0' = 0 := by decide
    have hlast : ds ++ zeros (n + 1) = ds ++ zeros n ++ ['0'] := by
      rw [zeros, List.replicate_succ', List.append_assoc]
      rfl
    have hstep : ofDigits (ds ++ zeros n ++ ['0']) = 10 * ofDigits (ds ++ zeros n) := by
      rw [ofDigits, List.foldl_append, List.foldl_cons, List.foldl_nil, hzero]
      rfl
    rw [hlast, hstep, ih]
    ring

theorem ofDigits_zeros_append (ds : List Char) (n : Nat) :
    ofDigits (zeros n ++ ds) = ofDigits ds := by
  induction n with
  | zero => rfl
  | succ n ih => exact ih

/-! ### Numerals -/

theorem numeralValue_of_digits {ds : List Char} (h : ∀ d ∈ ds, d.isDigit = true) :
    numeralValue ds = ofDigits ds := by
  rw [numeralValue, places, (takeWhile_digits h).2, List.filter_eq_self.2 h]
  simp

theorem numeralValue_of_point {ds es : List Char} (hds : ∀ d ∈ ds, d.isDigit = true)
    (hes : ∀ e ∈ es, e.isDigit = true) :
    numeralValue (ds ++ '.' :: es) = ofDigits (ds ++ es) / 10 ^ es.length := by
  have hpoint : ('.' : Char).isDigit = false := by decide
  have hdrop : (ds ++ '.' :: es).dropWhile Char.isDigit = '.' :: es := by
    rw [List.dropWhile_append_of_pos hds, List.dropWhile_cons_of_neg (by simp [hpoint])]
  have hfilter : (ds ++ '.' :: es).filter Char.isDigit = ds ++ es := by
    rw [List.filter_append, List.filter_cons_of_neg (by simp [hpoint]), List.filter_eq_self.2 hds,
      List.filter_eq_self.2 hes]
  rw [numeralValue, places, hdrop, hfilter, List.tail_cons]

/-- A decimal is written as a numeral of its value. -/
theorem positionalForm_plain (d : Scientific) :
    IsNumeral (positionalForm .plain d) ∧ numeralValue (positionalForm .plain d) = d.value := by
  have hdigits : ∀ c ∈ digitsOf d.digits, c.isDigit = true := fun c hc => isDigit_of_mem_digitsOf hc
  have hzeros (n : Nat) : ∀ c ∈ zeros n, c.isDigit = true := fun c hc => isDigit_of_mem_zeros hc
  unfold positionalForm Scientific.value
  dsimp only
  split
  · next hwhole =>
    obtain ⟨k, hk⟩ := Int.eq_ofNat_of_zero_le hwhole
    have hend : Layout.plain.wholeEnd.toList = [] := rfl
    have hall := List.forall_mem_append.2 ⟨hdigits, hzeros d.exponent.toNat⟩
    rw [hend, List.append_nil]
    refine ⟨(isNumeral_of_digits hall hall).1, ?_⟩
    rw [numeralValue_of_digits hall, ofDigits_append_zeros, ofDigits_digitsOf, hk]
    push_cast [Int.toNat_natCast]
    rw [zpow_natCast]
  · next hfraction =>
    -- the exponent counts the places
    obtain ⟨places, hplaces⟩ : ∃ places : Nat, d.exponent = -places :=
      ⟨(-d.exponent).toNat, by omega⟩
    rw [hplaces, neg_neg, Int.toNat_natCast, zpow_neg, zpow_natCast, ← div_eq_mul_inv]
    split
    · next hsplit =>
      have htake : ∀ c ∈ (digitsOf d.digits).take ((digitsOf d.digits).length - places),
          c.isDigit = true := fun c hc => hdigits c (List.mem_of_mem_take hc)
      have hdrop : ∀ c ∈ (digitsOf d.digits).drop ((digitsOf d.digits).length - places),
          c.isDigit = true := fun c hc => hdigits c (List.mem_of_mem_drop hc)
      refine ⟨(isNumeral_of_digits htake hdrop).2, ?_⟩
      rw [numeralValue_of_point htake hdrop, List.take_append_drop, ofDigits_digitsOf, List.length_drop]
      congr 2
      omega
    · next hshort =>
      have hplaces := List.forall_mem_append.2
        ⟨hzeros (places - (digitsOf d.digits).length), hdigits⟩
      refine ⟨(isNumeral_of_digits (hzeros 1) hplaces).2, ?_⟩
      refine (numeralValue_of_point (hzeros 1) hplaces).trans ?_
      rw [ofDigits_zeros_append, ofDigits_zeros_append, ofDigits_digitsOf, List.length_append,
        zeros, List.length_replicate]
      congr 2
      omega

/-- The text of a finite value is a numeral of a number around it. -/
theorem magnitude_plain (m : Nat) (e : Int) :
    IsNumeral (Layout.plain.magnitude m e) ∧ Around m e (numeralValue (Layout.plain.magnitude m e)) := by
  have hwrite (d : Scientific) : Layout.plain.write d = positionalForm .plain d := rfl
  unfold Layout.magnitude
  split
  · next hzero =>
    obtain ⟨hnumeral, hvalue⟩ := positionalForm_plain { digits := 0, exponent := 0 }
    rw [hwrite]
    refine ⟨hnumeral, ?_⟩
    have haround := Neighbourhood.value_around m e
    rw [hzero] at haround ⊢
    rw [hvalue, Scientific.value]
    simpa using haround
  · next hm =>
    obtain ⟨hnumeral, hvalue⟩ := positionalForm_plain (shortest .up m e)
    have hplain : Layout.plain.tie = .up := rfl
    rw [hwrite, hplain]
    refine ⟨hnumeral, ?_⟩
    rw [hvalue]
    exact shortest_around .up (Nat.pos_of_ne_zero hm) e

/-! ### The parts of a double -/

theorem eq_of_toBits {x y : Float} (h : x.toBits = y.toBits) : x = y := by
  obtain ⟨⟨b, hb⟩⟩ := x
  obtain ⟨⟨c, hc⟩⟩ := y
  obtain rfl : b = c := h
  rfl

/-- There is only one NaN. -/
theorem eq_nan_of_ofFloat {x : Float} (h : Binary.ofFloat x = .nan) : x = Float.nan := by
  have hnan : Float.nan.toBits = 0x7FF8000000000000 := by decide
  apply eq_of_toBits
  rw [hnan]
  rw [Binary.ofFloat, Binary.ofBits_eq] at h
  split at h
  · next hfield =>
    split at h
    · cases h
    · next hfraction =>
      have hvalid := x.toModel.valid.eq_packedNaN
        ((unpackExponent_eq_neg_one_iff x.toBits.toBitVec).2 hfield)
        (fun hzero => hfraction ((unpackMantissa_eq_zero_iff x.toBits.toBitVec).1 hzero))
      apply UInt64.toBitVec_inj.1
      refine Eq.trans hvalid ?_
      decide
  · split at h <;> cases h

/-- The significand and the exponent of a finite double are canonical. -/
theorem isCanonical_of_ofFloat {x : Float} {negative : Bool} {m : Nat} {e : Int}
    (h : Binary.ofFloat x = .finite negative m e) : IsCanonical m e := by
  rw [Binary.ofFloat, Binary.ofBits_eq] at h
  unfold Binary.lowestExponent at h
  split at h
  · split at h <;> cases h
  · split at h
    · cases h
      exact ⟨by omega, le_refl _, .inr rfl⟩
    · cases h
      exact ⟨by omega, by omega, .inl (by omega)⟩

/-- The parts of a double that is not NaN tell it apart from all others. -/
theorem ofFloat_injective {x y : Float} (hx : Binary.ofFloat x ≠ .nan)
    (h : Binary.ofFloat x = Binary.ofFloat y) : x = y := by
  apply eq_of_toBits
  apply UInt64.toNat_inj.1
  have hltx := x.toBits.toNat_lt
  have hlty := y.toBits.toNat_lt
  rw [Binary.ofFloat, Binary.ofBits_eq] at hx
  rw [Binary.ofFloat, Binary.ofFloat, Binary.ofBits_eq, Binary.ofBits_eq] at h
  unfold Binary.lowestExponent at h
  generalize x.toBits.toNat = a at h hx hltx
  generalize y.toBits.toNat = b at h hlty
  have hsign (n : Nat) : (n / 2 ^ 63 % 2 == 1) = decide (n / 2 ^ 63 % 2 = 1) := rfl
  simp only [hsign] at h hx
  -- the sign, the field of the exponent and the fraction are told one by one
  obtain ⟨hnegative, hfield, hfraction⟩ : (a / 2 ^ 63 % 2 = 1 ↔ b / 2 ^ 63 % 2 = 1) ∧
      a / 2 ^ 52 % 2 ^ 11 = b / 2 ^ 52 % 2 ^ 11 ∧ a % 2 ^ 52 = b % 2 ^ 52 := by
    split_ifs at h hx <;>
      simp only [Binary.infinite.injEq, Binary.finite.injEq, decide_eq_decide] at h
    all_goals first | omega | exact absurd rfl hx
  omega

/-! ### Texts -/

/-- The text of a double that is not NaN: a numeral of a number around the double, or the word for an
    infinity, after the sign. -/
inductive Written (x : Float) (negative : Bool) (body : List Char) : Prop
  | infinite : Binary.ofFloat x = .infinite negative → body = ['i', 'n', 'f'] →
    Written x negative body
  | finite {m : Nat} {e : Int} : Binary.ofFloat x = .finite negative m e → IsNumeral body →
    Around m e (numeralValue body) → Written x negative body

theorem Written.minus_not_mem {x : Float} {negative : Bool} {body : List Char}
    (h : Written x negative body) : '-' ∉ body := by
  cases h with
  | infinite _ hbody =>
    rw [hbody]
    decide
  | finite _ hnumeral _ => exact hnumeral.not_mem (by decide) (by decide)

theorem written_render {x : Float} (h : x ≠ Float.nan) :
    ∃ negative body, Written x negative body ∧
      (render .plain x).toList = if negative then '-' :: body else body := by
  unfold render
  cases hx : Binary.ofFloat x with
  | nan => exact absurd (eq_nan_of_ofFloat hx) h
  | infinite negative =>
    refine ⟨negative, ['i', 'n', 'f'], .infinite hx rfl, ?_⟩
    cases negative <;> rfl
  | finite negative m e =>
    obtain ⟨hnumeral, haround⟩ := magnitude_plain m e
    refine ⟨negative, _, .finite hx hnumeral haround, ?_⟩
    rw [String.toList_ofList]

/-- The characters of the text of a double. -/
theorem not_mem_render {c : Char} (hdigit : c.isDigit = false)
    (hother : c ∉ ['.', '-', 'i', 'n', 'f', 'N', 'a']) (x : Float) :
    c ∉ (render .plain x).toList := by
  simp only [List.mem_cons, List.not_mem_nil, or_false, not_or] at hother
  by_cases hx : x = Float.nan
  · have hnan : (render .plain x).toList = ['N', 'a', 'N'] := by
      rw [hx]
      rfl
    rw [hnan]
    simp [hother]
  · obtain ⟨negative, body, hwritten, htext⟩ := written_render hx
    have hbody : c ∉ body := by
      cases hwritten with
      | infinite _ hbody => simp [hbody, hother]
      | finite _ hnumeral _ => exact hnumeral.not_mem hdigit hother.1
    rw [htext]
    cases negative
    · exact hbody
    · simp [hbody, hother]

/-- Two doubles with the same sign and the same text besides it are equal. -/
theorem Written.eq {x y : Float} {negative : Bool} {body : List Char}
    (hx : Written x negative body) (hy : Written y negative body) : x = y := by
  have hword : ¬ IsNumeral ['i', 'n', 'f'] := fun h =>
    absurd (h.1 'i' List.mem_cons_self) (by decide)
  cases hx with
  | infinite hx hbody =>
    cases hy with
    | infinite hy _ => exact ofFloat_injective (by rw [hx]; nofun) (hx.trans hy.symm)
    | finite _ hnumeral _ =>
      rw [hbody] at hnumeral
      exact absurd hnumeral hword
  | finite hx hnumeral haround =>
    cases hy with
    | infinite _ hbody =>
      rw [hbody] at hnumeral
      exact absurd hnumeral hword
    | finite hy _ haround' =>
      obtain ⟨rfl, rfl⟩ := eq_of_around (isCanonical_of_ofFloat hx) (isCanonical_of_ofFloat hy)
        haround haround'
      exact ofFloat_injective (by rw [hx]; nofun) (hx.trans hy.symm)

/-- No two doubles besides the NaN are written alike. -/
theorem render_injective {x y : Float} (hx : x ≠ Float.nan) (hy : y ≠ Float.nan)
    (h : render .plain x = render .plain y) : x = y := by
  obtain ⟨negative, body, hwritten, htext⟩ := written_render hx
  obtain ⟨negative', body', hwritten', htext'⟩ := written_render hy
  have hminus := hwritten.minus_not_mem
  have hminus' := hwritten'.minus_not_mem
  rw [← h, htext] at htext'
  cases negative <;> cases negative'
  case false.false =>
    obtain rfl : body = body' := htext'
    exact hwritten.eq hwritten'
  case false.true =>
    obtain rfl : body = '-' :: body' := htext'
    exact absurd List.mem_cons_self hminus
  case true.false =>
    obtain rfl : '-' :: body = body' := htext'
    exact absurd List.mem_cons_self hminus'
  case true.true =>
    obtain rfl : body = body' := (List.cons.inj htext').2
    exact hwritten.eq hwritten'

end BehaviorTree.Decimal
