import BehaviorTree.Decimal.Reader
import Mathlib.Algebra.Field.Rat
import Mathlib.Data.List.TakeWhile

namespace BehaviorTree.Decimal

/-!
# Numerals

A numeral is a text of ASCII digits with at most one point, as the tokens of a tree file hold them.
Main statement: `isSome_readFloat?_iff` — a numeral reads as a double exactly when it has a digit.
-/

/-- Digits with at most one point among them; not every numeral has a digit. -/
def IsNumeral (cs : List Char) : Prop :=
  (∀ c ∈ cs, c.isDigit = true ∨ c = '.') ∧ cs.count '.' ≤ 1

/-- At least one digit. -/
def HasDigit (cs : List Char) : Prop := ∃ c ∈ cs, c.isDigit = true

variable {cs : List Char}

/-- Digits, and digits around a point, are a numeral. -/
theorem isNumeral_of_digits {ds es : List Char} (hds : ∀ d ∈ ds, d.isDigit = true)
    (hes : ∀ e ∈ es, e.isDigit = true) : IsNumeral ds ∧ IsNumeral (ds ++ '.' :: es) := by
  have hcount {ds : List Char} (h : ∀ d ∈ ds, d.isDigit = true) : ds.count '.' = 0 :=
    List.count_eq_zero.2 fun hpoint => absurd (h '.' hpoint) (by decide)
  refine ⟨⟨fun d hd => .inl (hds d hd), by rw [hcount hds]; omega⟩, ?_, ?_⟩
  · intro c hc
    rcases List.mem_append.1 hc with hc | hc
    · exact .inl (hds c hc)
    rcases List.mem_cons.1 hc with rfl | hc
    · exact .inr rfl
    · exact .inl (hes c hc)
  · rw [List.count_append, List.count_cons_self, hcount hds, hcount hes]

/-- The characters of a numeral are none of those that begin a sign or a word. -/
theorem IsNumeral.not_mem (h : IsNumeral cs) {c : Char} (hdigit : c.isDigit = false)
    (hpoint : c ≠ '.') : c ∉ cs := by
  intro hc
  rcases h.1 c hc with hc | hc
  · rw [hdigit] at hc
    exact absurd hc nofun
  · exact hpoint hc

theorem IsNumeral.cutSign_eq (h : IsNumeral cs) : cutSign cs = (false, cs) := by
  have hminus := h.not_mem (c := '-') (by decide) (by decide)
  have hplus := h.not_mem (c := '+') (by decide) (by decide)
  unfold cutSign
  split
  · simp at hminus
  · simp at hplus
  · rfl

theorem IsNumeral.map_toLower (h : IsNumeral cs) : cs.map Char.toLower = cs := by
  have hkept : ∀ c ∈ cs, c.toLower = c := by
    intro c hc
    rcases h.1 c hc with hdigit | rfl
    · unfold Char.toLower
      apply dif_neg
      simp only [Char.isDigit, Bool.and_eq_true, decide_eq_true_eq, ge_iff_le,
        UInt32.le_iff_toNat_le] at hdigit ⊢
      have hnine : '9'.val.toNat = 57 := rfl
      have hupper : 'A'.val.toNat = 65 := rfl
      omega
    · rfl
  rw [List.map_congr_left hkept, List.map_id']

/-- No numeral is a word that begins with a letter. -/
theorem IsNumeral.ofList_ne (h : IsNumeral cs) {s : String} {c : Char} (hc : c ∈ s.toList)
    (hdigit : c.isDigit = false) (hpoint : c ≠ '.') : String.ofList cs ≠ s := by
  intro heq
  rw [← heq, String.toList_ofList] at hc
  exact h.not_mem hdigit hpoint hc

/-- Nor is it a word for a double that is not finite. -/
theorem IsNumeral.ne_words (h : IsNumeral cs) :
    String.ofList cs ≠ "inf" ∧ String.ofList cs ≠ "infinity" ∧ String.ofList cs ≠ "nan" :=
  ⟨h.ofList_ne (c := 'i') (by decide) (by decide) (by decide),
    h.ofList_ne (c := 'i') (by decide) (by decide) (by decide),
    h.ofList_ne (c := 'n') (by decide) (by decide) (by decide)⟩

/-- What follows the point of a numeral is digits. -/
theorem IsNumeral.digits_of_point (h : IsNumeral cs) {ds : List Char}
    (hdrop : cs.dropWhile Char.isDigit = '.' :: ds) : ∀ c ∈ ds, c.isDigit = true := by
  have hsplit := List.takeWhile_append_dropWhile (p := Char.isDigit) (l := cs)
  rw [hdrop] at hsplit
  intro c hc
  have hmem : c ∈ cs := by rw [← hsplit]; simp [hc]
  rcases h.1 c hmem with hdigit | rfl
  · exact hdigit
  · -- a second point
    have hcount := h.2
    rw [← hsplit, List.count_append, List.count_cons_self] at hcount
    have hpos := List.count_pos_iff.2 hc
    omega

/-- Without its point a numeral is two lists of digits. -/
theorem IsNumeral.cases (h : IsNumeral cs) :
    ∃ whole fraction, (∀ c ∈ whole ++ fraction, c.isDigit = true) ∧
      (cs = whole ∧ fraction = [] ∨ cs = whole ++ '.' :: fraction) := by
  have hsplit := List.takeWhile_append_dropWhile (p := Char.isDigit) (l := cs)
  have hwhole : ∀ c ∈ cs.takeWhile Char.isDigit, c.isDigit = true :=
    fun c hc => List.mem_takeWhile_imp hc
  cases hdrop : cs.dropWhile Char.isDigit with
  | nil =>
    rw [hdrop, List.append_nil] at hsplit
    exact ⟨cs.takeWhile Char.isDigit, [], by simpa using hwhole, .inl ⟨hsplit.symm, rfl⟩⟩
  | cons c fraction =>
    have hc : c.isDigit = false := by
      have hhead := List.head_dropWhile_not (p := Char.isDigit) (l := cs) (by rw [hdrop]; simp)
      simpa only [hdrop, List.head_cons] using hhead
    have hpoint : c = '.' := by
      have hmem : c ∈ cs := by rw [← hsplit, hdrop]; simp
      rcases h.1 c hmem with hdigit | hpoint
      · rw [hc] at hdigit
        exact absurd hdigit nofun
      · exact hpoint
    subst hpoint
    refine ⟨cs.takeWhile Char.isDigit, fraction, ?_, .inr ?_⟩
    · exact List.forall_mem_append.2 ⟨hwhole, h.digits_of_point hdrop⟩
    · rw [← hdrop, hsplit]

theorem takeWhile_digits {ds : List Char} (h : ∀ c ∈ ds, c.isDigit = true) :
    ds.takeWhile Char.isDigit = ds ∧ ds.dropWhile Char.isDigit = [] :=
  ⟨List.takeWhile_eq_self_iff.2 h, List.dropWhile_eq_nil_iff.2 h⟩

/-- How many digits follow the point of a numeral. -/
def places (cs : List Char) : Nat := (cs.dropWhile Char.isDigit).tail.length

/-- The number that a numeral writes. -/
def numeralValue (cs : List Char) : ℚ := ofDigits (cs.filter Char.isDigit) / 10 ^ places cs

theorem hasDigit_iff : HasDigit cs ↔ cs.filter Char.isDigit ≠ [] := by
  rw [ne_eq, List.filter_eq_nil_iff]
  simp [HasDigit]

/-- A numeral reads as the number of its digits, with a power of ten for its places. -/
theorem IsNumeral.readUnsigned?_eq (h : IsNumeral cs) :
    readUnsigned? cs = if cs.filter Char.isDigit = [] then none
      else some (ofDigits (cs.filter Char.isDigit), -(places cs : Int)) := by
  obtain ⟨whole, fraction, hdigits, hcs⟩ := h.cases
  obtain ⟨hwhole, hfraction⟩ := List.forall_mem_append.1 hdigits
  obtain ⟨htake, hdrop⟩ := takeWhile_digits hwhole
  obtain ⟨htake', hdrop'⟩ := takeWhile_digits hfraction
  have hpoint : ('.' : Char).isDigit = false := by decide
  rcases hcs with ⟨rfl, rfl⟩ | rfl
  · have hfilter : cs.filter Char.isDigit = cs := List.filter_eq_self.2 hwhole
    simp only [readUnsigned?, places, htake, hdrop, hfilter]
    cases cs <;> simp [readExponent?]
  · have hwhole' : (whole ++ '.' :: fraction).takeWhile Char.isDigit = whole := by
      rw [List.takeWhile_append_of_pos hwhole, List.takeWhile_cons_of_neg (by simp [hpoint]),
        List.append_nil]
    have hrest : (whole ++ '.' :: fraction).dropWhile Char.isDigit = '.' :: fraction := by
      rw [List.dropWhile_append_of_pos hwhole, List.dropWhile_cons_of_neg (by simp [hpoint])]
    have hfilter : (whole ++ '.' :: fraction).filter Char.isDigit = whole ++ fraction := by
      rw [List.filter_append, List.filter_cons_of_neg (by simp [hpoint]), ← List.filter_append]
      exact List.filter_eq_self.2 hdigits
    simp only [readUnsigned?, places, hwhole', hrest, htake', hdrop', hfilter]
    cases whole <;> cases fraction <;> simp [readExponent?]

/-- A numeral is none of the words for doubles that are not finite, and has no sign. -/
theorem IsNumeral.readFloat?_eq (h : IsNumeral cs) :
    readFloat? cs = (readUnsigned? cs).map fun (digits, e) => ofScientific false digits e := by
  obtain ⟨hinf, hinfinity, hnan⟩ := h.ne_words
  simp only [readFloat?, h.cutSign_eq, h.map_toLower, hinf, hinfinity, hnan, or_self, if_false]

/-- A numeral reads as a double exactly when it has a digit. -/
theorem isSome_readFloat?_iff (h : IsNumeral cs) :
    (readFloat? cs).isSome = true ↔ HasDigit cs := by
  rw [h.readFloat?_eq, Option.isSome_map, h.readUnsigned?_eq, hasDigit_iff]
  split <;> simp_all

end BehaviorTree.Decimal
