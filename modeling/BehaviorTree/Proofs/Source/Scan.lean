import BehaviorTree.Proofs.Source.Layout
import BehaviorTree.Proofs.Text.Delimited

namespace BehaviorTree.Source

/-!
# Tokens that are read back

At each place `next` takes the longest word or number, or a text between quotes, and passes over what is
no token.  A token that was written is read back if nothing follows it that could belong to it.

* `Ends` — what may follow a token directly;
* `scanLine_token` — a valid token is read back before such characters.
-/

open Text (isBlank isLetter isNumeral takeWhile_stop)
open Decimal (IsNumeral)

/-! ### Characters -/

theorem isWordStart_iff {c : Char} : isWordStart c = true ↔ isLetter c = true ∨ c = '_' := by
  simp [isWordStart]

theorem isWordChar_iff {c : Char} :
    isWordChar c = true ↔ isLetter c = true ∨ isNumeral c = true ∨ c = '_' := by
  simp [isWordChar, or_assoc]

theorem isWord_cons_iff {c : Char} {cs : List Char} :
    IsWord (c :: cs) ↔ isWordStart c = true ∧ ∀ d ∈ cs, isWordChar d = true := by
  simp only [IsWord, isWordStart_iff, isWordChar_iff]

theorem not_isWordStart_of_isBlank {c : Char} (h : isBlank c = true) : isWordStart c = false := by
  rw [Bool.eq_false_iff, ne_eq, isWordStart_iff, Text.not_isLetter_of_isBlank h]
  rintro (h' | rfl)
  · exact absurd h' nofun
  · exact absurd h (by decide)

theorem not_isWordChar_of_isBlank {c : Char} (h : isBlank c = true) : isWordChar c = false := by
  rw [Bool.eq_false_iff, ne_eq, isWordChar_iff, Text.not_isLetter_of_isBlank h,
    Text.not_isNumeral_of_isBlank h]
  rintro (h' | h' | rfl)
  · exact absurd h' nofun
  · exact absurd h' nofun
  · exact absurd h (by decide)

theorem not_isWordStart_of_isDigit {c : Char} (h : c.isDigit = true) : isWordStart c = false := by
  obtain ⟨hlow, hhigh⟩ := Text.range_of_isDigit h
  rw [Bool.eq_false_iff, ne_eq, isWordStart_iff, Text.isLetter_of_ascii (by omega)]
  rintro (hletter | rfl)
  · have hrange := Text.range_of_isAlpha hletter
    omega
  · exact absurd hhigh (by decide)

/-- What may follow a token directly: white space, a comment, or nothing. -/
def Ends (cs : List Char) : Prop := ∀ c ∈ cs.head?, isBlank c = true ∨ c = '#'

theorem Ends.isWordChar {cs : List Char} (h : Ends cs) : ∀ c ∈ cs.head?, isWordChar c = false := by
  intro c hc
  rcases h c hc with hblank | rfl
  · exact not_isWordChar_of_isBlank hblank
  · decide

theorem Ends.isDigit {cs : List Char} (h : Ends cs) : ∀ c ∈ cs.head?, c.isDigit = false := by
  intro c hc
  rcases h c hc with hblank | rfl
  · exact Text.not_isDigit_of_isBlank hblank
  · decide

theorem Ends.ne_point {cs : List Char} (h : Ends cs) : ∀ c ∈ cs.head?, c ≠ '.' := by
  intro c hc
  rcases h c hc with hblank | rfl
  · exact Text.ne_of_isBlank_of_visible hblank (by decide) (by decide)
  · decide

/-! ### The token at a place -/

theorem next_blank (line : Nat) {c : Char} (h : isBlank c = true) (cs : List Char) :
    next line c cs = (none, cs) := by
  have hne {d : Char} (hvisible : 32 < d.toNat) (hascii : d.toNat < 128) : c ≠ d :=
    Text.ne_of_isBlank_of_visible h hvisible hascii
  have hdigit := Text.not_isDigit_of_isBlank h
  have hquotes : ¬(c = '"' ∨ c = '\'') :=
    not_or_intro (hne (by decide) (by decide)) (hne (by decide) (by decide))
  have hnumber : ¬(c.isDigit = true ∨ c = '.') :=
    not_or_intro (by simp [hdigit]) (hne (by decide) (by decide))
  rw [next, if_neg (hne (by decide) (by decide)), if_neg (hne (by decide) (by decide)),
    if_neg (hne (by decide) (by decide)), if_neg (hne (by decide) (by decide)), if_neg hquotes,
    if_neg (by simp [not_isWordStart_of_isBlank h]), if_neg hnumber]

theorem next_quote (line : Nat) {q : Char} (h : q = '"' ∨ q = '\'') (cs : List Char) :
    next line q cs =
      (some ⟨.text, line, String.ofList (cs.takeWhile (· ≠ q))⟩, (cs.dropWhile (· ≠ q)).tail) := by
  rcases h with rfl | rfl <;> rfl

theorem next_word (line : Nat) {c : Char} (h : isWordStart c = true) (cs : List Char) :
    next line c cs =
      (some ⟨wordKind (String.ofList (c :: cs.takeWhile isWordChar)), line,
        String.ofList (c :: cs.takeWhile isWordChar)⟩, cs.dropWhile isWordChar) := by
  have hne {d : Char} (hd : isWordStart d = false) : c ≠ d := by
    rintro rfl
    rw [hd] at h
    exact absurd h nofun
  have hquotes : ¬(c = '"' ∨ c = '\'') := not_or_intro (hne (by decide)) (hne (by decide))
  rw [next, if_neg (hne (by decide)), if_neg (hne (by decide)), if_neg (hne (by decide)),
    if_neg (hne (by decide)), if_neg hquotes, if_pos h]

theorem next_number (line : Nat) {c : Char} (h : c.isDigit = true ∨ c = '.') (cs : List Char) :
    next line c cs =
      (some ⟨.number, line, String.ofList (c :: (cutNumber (c = '.') cs).1)⟩,
        (cutNumber (c = '.') cs).2) := by
  have hne {d : Char} (hd : d.isDigit = false) (hpoint : d ≠ '.') : c ≠ d := by
    rintro rfl
    rcases h with h | h
    · rw [hd] at h
      exact absurd h nofun
    · exact hpoint h
  have hquotes : ¬(c = '"' ∨ c = '\'') :=
    not_or_intro (hne (by decide) (by decide)) (hne (by decide) (by decide))
  have hword : ¬isWordStart c = true := by
    rcases h with h | rfl
    · rw [not_isWordStart_of_isDigit h]
      exact nofun
    · decide
  rw [next, if_neg (hne (by decide) (by decide)), if_neg (hne (by decide) (by decide)),
    if_neg (hne (by decide) (by decide)), if_neg (hne (by decide) (by decide)), if_neg hquotes,
    if_neg hword, if_pos h]

/-! ### Numbers -/

theorem cutNumber_digits (hasPoint : Bool) {ds cs : List Char} (hds : ∀ d ∈ ds, d.isDigit = true)
    (hcs : Ends cs) : cutNumber hasPoint (ds ++ cs) = (ds, cs) := by
  obtain ⟨htake, hdrop⟩ := takeWhile_stop hds hcs.isDigit
  rw [cutNumber, htake, hdrop]
  cases cs with
  | nil => rfl
  | cons c cs =>
    have hc := hcs.ne_point c rfl
    split
    · rename_i heq
      exact absurd (List.cons.inj heq).1 hc
    · rfl

theorem cutNumber_point {ds es cs : List Char} (hds : ∀ d ∈ ds, d.isDigit = true)
    (hes : ∀ e ∈ es, e.isDigit = true) (hcs : Ends cs) :
    cutNumber false (ds ++ '.' :: (es ++ cs)) = (ds ++ '.' :: es, cs) := by
  have hpoint : ∀ c ∈ ('.' :: (es ++ cs)).head?, c.isDigit = false := by
    rintro _ ⟨rfl⟩
    decide
  obtain ⟨htake, hdrop⟩ := takeWhile_stop hds hpoint
  obtain ⟨htake', hdrop'⟩ := takeWhile_stop hes hcs.isDigit
  rw [cutNumber, htake, hdrop]
  simp only [Bool.false_eq_true, if_false, htake', hdrop']

/-- A numeral is read to its end. -/
theorem cutNumber_numeral {c : Char} {ds cs : List Char} (h : IsNumeral (c :: ds)) (hcs : Ends cs) :
    cutNumber (c = '.') (ds ++ cs) = (ds, cs) := by
  obtain ⟨whole, fraction, hdigits, hsplit⟩ := h.cases
  obtain ⟨hwhole, hfraction⟩ := List.forall_mem_append.1 hdigits
  rcases hsplit with ⟨rfl, -⟩ | hsplit
  · exact cutNumber_digits _ (fun d hd => hwhole d (List.mem_cons_of_mem c hd)) hcs
  cases whole with
  | nil =>
    obtain ⟨rfl, rfl⟩ := List.cons.inj hsplit
    exact cutNumber_digits _ hfraction hcs
  | cons d whole =>
    obtain ⟨rfl, hds⟩ := List.cons.inj hsplit
    have hc : c ≠ '.' := by
      rintro rfl
      exact absurd (hwhole '.' List.mem_cons_self) (by decide)
    rw [show ds = whole ++ '.' :: fraction from hds, List.append_assoc, List.cons_append,
      decide_eq_false hc]
    exact cutNumber_point (fun d hd => hwhole d (List.mem_cons_of_mem c hd)) hfraction hcs

/-! ### Words -/

theorem Keyword.spelling_of_ofSpelling? {s : String} {k : Keyword} (h : ofSpelling? s = some k) :
    s = k.spelling := by
  unfold ofSpelling? at h
  split at h <;> cases h <;> rfl

theorem wordKind_spelling (k : Keyword) : wordKind k.spelling = .keyword k := by
  rw [wordKind, Keyword.ofSpelling?_spelling]

theorem wordKind_eq_identifier {s : String} (h : ∀ k : Keyword, s ≠ k.spelling) :
    wordKind s = .identifier := by
  unfold wordKind
  split
  · rename_i k hk
    exact absurd (Keyword.spelling_of_ofSpelling? hk) (h k)
  · rfl

theorem isWord_spelling (k : Keyword) : IsWord k.spelling.toList := by
  cases k with
  | tree => decide
  | node word =>
    cases word with
    | inner kind => cases kind <;> decide
    | leaf kind => cases kind <;> decide

/-! ### Tokens that are read back -/

theorem scanLine_cons (line : Nat) (c : Char) (cs : List Char) :
    scanLine line (c :: cs) = (next line c cs).1.toList ++ scanLine line (next line c cs).2 := by
  rw [scanLine]

theorem scanLine_word {line : Nat} {w cs : List Char} (h : IsWord w) (hcs : Ends cs) :
    scanLine line (w ++ cs) =
      ⟨wordKind (String.ofList w), line, String.ofList w⟩ :: scanLine line cs := by
  cases w with
  | nil => exact h.elim
  | cons c w =>
    obtain ⟨hc, hw⟩ := isWord_cons_iff.1 h
    obtain ⟨htake, hdrop⟩ := takeWhile_stop hw hcs.isWordChar
    rw [List.cons_append, scanLine_cons, next_word line hc, htake, hdrop]
    rfl

theorem scanLine_number {line : Nat} {ds cs : List Char} (h : IsNumeral ds) (hne : ds ≠ [])
    (hcs : Ends cs) :
    scanLine line (ds ++ cs) = ⟨.number, line, String.ofList ds⟩ :: scanLine line cs := by
  cases ds with
  | nil => exact absurd rfl hne
  | cons c ds =>
    rw [List.cons_append, scanLine_cons, next_number line (h.1 c List.mem_cons_self),
      cutNumber_numeral h hcs]
    rfl

theorem scanLine_quoted {line : Nat} {q : Char} (hq : q = '"' ∨ q = '\'') {ds : List Char}
    (hds : q ∉ ds) (cs : List Char) :
    scanLine line (q :: ds ++ [q] ++ cs) =
      ⟨.text, line, String.ofList ds⟩ :: scanLine line cs := by
  have hstop : ∀ c ∈ (q :: cs).head?, decide (c ≠ q) = false := by
    rintro _ ⟨rfl⟩
    simp
  have hwithin : ∀ d ∈ ds, decide (d ≠ q) = true := by
    intro d hd
    simpa using ne_of_mem_of_not_mem hd hds
  obtain ⟨htake, hdrop⟩ := takeWhile_stop hwithin hstop
  rw [List.append_assoc, List.cons_append, scanLine_cons, next_quote line hq, List.singleton_append,
    htake, hdrop]
  rfl

/-- A valid token is read back where nothing follows it directly. -/
theorem scanLine_token {t : Token} (h : t.Valid) {ds cs : List Char} (hwrites : Writes t ds)
    (hcs : Ends cs) : scanLine t.line (ds ++ cs) = t :: scanLine t.line cs := by
  obtain ⟨kind, line, text⟩ := t
  cases hwrites with
  | quoted htext hq hds =>
    obtain rfl : kind = .text := htext
    rw [scanLine_quoted hq hds, String.ofList_toList]
  | plain htext =>
    cases kind with
    | text => exact absurd rfl htext
    | leftBrace =>
      obtain rfl : text = "\x7b" := h
      rw [show ("\x7b" : String).toList = ['{'] by decide, List.singleton_append, scanLine_cons]
      rfl
    | rightBrace =>
      obtain rfl : text = "\x7d" := h
      rw [show ("\x7d" : String).toList = ['}'] by decide, List.singleton_append, scanLine_cons]
      rfl
    | colon =>
      obtain rfl : text = ":" := h
      rw [show (":" : String).toList = [':'] by decide, List.singleton_append, scanLine_cons]
      rfl
    | keyword k =>
      obtain rfl : text = k.spelling := h
      rw [scanLine_word (isWord_spelling k) hcs, String.ofList_toList, wordKind_spelling]
    | identifier =>
      rw [scanLine_word h.1 hcs, String.ofList_toList, wordKind_eq_identifier h.2]
    | number => rw [scanLine_number h.2 h.1 hcs, String.ofList_toList]

end BehaviorTree.Source
