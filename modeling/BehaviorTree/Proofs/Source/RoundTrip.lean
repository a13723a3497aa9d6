import BehaviorTree.Proofs.Source.Lines
import BehaviorTree.Proofs.Source.Scan

namespace BehaviorTree.Source

/-!
# Reading and writing

Reading a file inverts every layout of tokens, and whatever it reads can be written.

* `scanLines_of_layout` — every layout of valid tokens is read back;
* `valid_scanLines` — every token that is read is valid, and the tokens go down the lines;
* `scan_inverts_layouts` — both together.
-/

open Text (isBlank)
open Decimal (IsNumeral isNumeral_of_digits)

/-! ### Lines that are read back -/

theorem IsWord.not_isBlank {w : List Char} (h : IsWord w) : ∀ c ∈ w, isBlank c = false := by
  cases w with
  | nil => exact h.elim
  | cons c w =>
    obtain ⟨hc, hw⟩ := isWord_cons_iff.1 h
    rw [List.forall_mem_cons]
    refine ⟨?_, fun d hd => ?_⟩
    · by_contra hblank
      rw [not_isWordStart_of_isBlank (by simpa using hblank)] at hc
      exact absurd hc nofun
    · by_contra hblank
      have hd := hw d hd
      rw [not_isWordChar_of_isBlank (by simpa using hblank)] at hd
      exact absurd hd nofun

/-- Only a text holds white space. -/
theorem Token.Valid.not_isBlank {t : Token} (h : t.Valid) (hkind : t.kind ≠ .text) :
    ∀ c ∈ t.text.toList, isBlank c = false := by
  have hsymbol (s : String) (d : Char) (hs : s.toList = [d]) (hd : isBlank d = false) :
      ∀ c ∈ s.toList, isBlank c = false := by
    rw [hs]
    exact List.forall_mem_singleton.2 hd
  obtain ⟨kind, line, text⟩ := t
  cases kind with
  | text => exact absurd rfl hkind
  | leftBrace =>
    obtain rfl : text = "\x7b" := h
    exact hsymbol "\x7b" '{' (by decide) (by decide)
  | rightBrace =>
    obtain rfl : text = "\x7d" := h
    exact hsymbol "\x7d" '}' (by decide) (by decide)
  | colon =>
    obtain rfl : text = ":" := h
    exact hsymbol ":" ':' (by decide) (by decide)
  | keyword k =>
    obtain rfl : text = k.spelling := h
    exact (isWord_spelling k).not_isBlank
  | identifier => exact h.1.not_isBlank
  | number =>
    intro c hc
    by_contra hblank
    exact h.2.not_mem (Text.not_isDigit_of_isBlank (by simpa using hblank))
      (Text.ne_of_isBlank_of_visible (by simpa using hblank) (by decide) (by decide)) hc

/-- A token is written within a line, and does not end in a carriage return. -/
theorem Writes.within_line {t : Token} {ds : List Char} (h : Writes t ds) (hvalid : t.Valid) :
    '\n' ∉ ds ∧ ds.getLast? ≠ some '\r' := by
  cases h with
  | plain hkind =>
    have hblank := hvalid.not_isBlank hkind
    refine ⟨fun hmem => absurd (hblank _ hmem) (by decide), fun hlast => ?_⟩
    exact absurd (hblank _ (List.mem_of_getLast? hlast)) (by decide)
  | @quoted q hkind hq hds =>
    have hnewline : '\n' ∉ t.text.toList := by
      unfold Token.Valid at hvalid
      rw [hkind] at hvalid
      exact hvalid.1
    have hne : q ≠ '\n' ∧ q ≠ '\r' := by rcases hq with rfl | rfl <;> decide
    refine ⟨by simp [hnewline, hne.1.symm], ?_⟩
    rw [List.getLast?_concat]
    simpa using hne.2

theorem IsLine.ends {ts : List Token} {cs : List Char} (h : IsLine ts cs)
    (hseparated : ts ≠ [] → StartsBlank cs) : Ends cs := by
  intro c hc
  cases h with
  | nil => simp at hc
  | comment =>
    obtain rfl := Option.mem_some_iff.1 hc
    exact .inr rfl
  | blank hblank =>
    obtain rfl := Option.mem_some_iff.1 hc
    exact .inl hblank
  | token =>
    obtain ⟨d, hd, hblank⟩ := hseparated nofun
    obtain rfl := Option.mem_unique hc hd
    exact .inl hblank

theorem Ends.chomp {cs : List Char} (h : Ends cs) : Ends (chomp cs) :=
  fun c hc => h c (mem_head?_of_chomp hc)

/-- The tokens of a line are read back, with and without a carriage return at its end. -/
theorem IsLine.scanLine_eq {line : Nat} {ts : List Token} {cs : List Char} (h : IsLine ts cs)
    (hvalid : ∀ t ∈ ts, t.Valid) (hline : ∀ t ∈ ts, t.line = line) :
    scanLine line cs = ts ∧ scanLine line (chomp cs) = ts := by
  induction h with
  | nil => exact ⟨by rw [scanLine], by rw [chomp, scanLine]⟩
  | @comment cs =>
    have hcomment (cs : List Char) : scanLine line ('#' :: cs) = [] := by
      rw [scanLine_cons, next, if_pos rfl, scanLine]
      rfl
    rw [chomp_cons (.inl (by decide))]
    exact ⟨hcomment cs, hcomment (chomp cs)⟩
  | @blank c ts cs hblank _ _ ih =>
    have hskip (cs : List Char) : scanLine line (c :: cs) = scanLine line cs := by
      rw [scanLine_cons, next_blank line hblank]
      rfl
    obtain ⟨hline, hchomp⟩ := ih hvalid hline
    refine ⟨(hskip cs).trans hline, ?_⟩
    by_cases hreturn : c = '\r' ∧ cs = []
    · obtain ⟨rfl, rfl⟩ := hreturn
      exact hline
    · rw [chomp_cons (Decidable.not_and_iff_not_or_not.1 hreturn), hskip, hchomp]
  | @token t ts ds cs hwrites hrest hseparated ih =>
    obtain ⟨ht, hts⟩ := List.forall_mem_cons.1 hvalid
    obtain ⟨rfl, hlines⟩ := List.forall_mem_cons.1 hline
    obtain ⟨hline, hchomp⟩ := ih hts hlines
    have hends := hrest.ends hseparated
    rw [chomp_append (hwrites.within_line ht).2, scanLine_token ht hwrites hends,
      scanLine_token ht hwrites hends.chomp, hline, hchomp]
    exact ⟨rfl, rfl⟩

theorem IsLine.not_mem {ts : List Token} {cs : List Char} (h : IsLine ts cs)
    (hvalid : ∀ t ∈ ts, t.Valid) : '\n' ∉ cs := by
  induction h with
  | nil => simp
  | comment h => simpa using h
  | blank _ hne _ ih => exact List.not_mem_cons_of_ne_of_not_mem (Ne.symm hne) (ih hvalid)
  | token hwrites _ _ ih =>
    obtain ⟨ht, hts⟩ := List.forall_mem_cons.1 hvalid
    rw [List.mem_append, not_or]
    exact ⟨(hwrites.within_line ht).1, ih hts⟩

/-! ### Layouts that are read back -/

/-- Every layout of valid tokens is read back. -/
theorem scanLines_of_layout {line : Nat} {ts : List Token} {cs : List Char}
    (h : IsLayout line ts cs) (hvalid : ∀ t ∈ ts, t.Valid) : scanLines line (lines cs) = ts := by
  induction h with
  | @last line ts cs hline hlines =>
    have hscan := (hline.scanLine_eq hvalid hlines).1
    by_cases hnil : cs = []
    · subst hnil
      rw [lines, scanLines, ← hscan, scanLine]
    · rw [lines_last (hline.not_mem hvalid) hnil, scanLines, scanLines, hscan, List.append_nil]
  | @line line ts us cs ending ds hline hlines hending _ ih =>
    obtain ⟨hts, hus⟩ := List.forall_mem_append.1 hvalid
    obtain ⟨hscan, hchomp⟩ := hline.scanLine_eq hts hlines
    have hnewline := hline.not_mem hts
    rcases hending with rfl | rfl
    · rw [List.append_assoc, List.singleton_append, lines_line hnewline, scanLines, hchomp, ih hus]
    · -- the carriage return counts with the line, whose end it is
      have hreturn : '\n' ∉ cs ++ ['\r'] := by simp [hnewline]
      have hcut : cs ++ ['\r', '\n'] ++ ds = cs ++ ['\r'] ++ '\n' :: ds := by simp
      rw [hcut, lines_line hreturn, chomp_return, scanLines, hscan, ih hus]

/-! ### Tokens that are read are valid -/

/-- What is read as a number is a numeral. -/
theorem isNumeral_cutNumber {c : Char} (h : c.isDigit = true ∨ c = '.') (cs : List Char) :
    IsNumeral (c :: (cutNumber (c = '.') cs).1) := by
  have htake (cs : List Char) : ∀ d ∈ cs.takeWhile Char.isDigit, d.isDigit = true :=
    fun d hd => List.mem_takeWhile_imp hd
  have hnone : ∀ d ∈ ([] : List Char), d.isDigit = true := by simp
  by_cases hpoint : c = '.'
  · subst hpoint
    have hcut : (cutNumber true cs).1 = cs.takeWhile Char.isDigit := by
      unfold cutNumber
      split <;> rfl
    rw [decide_eq_true rfl, hcut]
    exact (isNumeral_of_digits hnone (htake cs)).2
  · have hdigit := h.resolve_right hpoint
    have hwhole : ∀ d ∈ c :: cs.takeWhile Char.isDigit, d.isDigit = true :=
      List.forall_mem_cons.2 ⟨hdigit, htake cs⟩
    rw [decide_eq_false hpoint]
    unfold cutNumber
    split
    · rename_i r _
      exact (isNumeral_of_digits hwhole (htake r)).2
    · exact (isNumeral_of_digits hwhole hnone).1

theorem cutNumber_suffix (hasPoint : Bool) (cs : List Char) : (cutNumber hasPoint cs).2 <:+ cs := by
  have hdrop := List.dropWhile_suffix (l := cs) Char.isDigit
  unfold cutNumber
  split
  · rename_i r hr
    rw [hr] at hdrop
    split
    · exact hdrop
    · exact (List.dropWhile_suffix _).trans ((List.suffix_cons '.' r).trans hdrop)
  · exact hdrop

/-- What is left of a line is its end. -/
theorem next_suffix (line : Nat) (c : Char) (cs : List Char) : (next line c cs).2 <:+ cs := by
  unfold next
  split
  · exact List.nil_suffix
  split
  · exact List.suffix_rfl
  split
  · exact List.suffix_rfl
  split
  · exact List.suffix_rfl
  split
  · exact (List.tail_suffix _).trans (List.dropWhile_suffix _)
  split
  · exact List.dropWhile_suffix _
  split
  · exact cutNumber_suffix _ cs
  · exact List.suffix_rfl

theorem valid_word (line : Nat) {w : List Char} (h : IsWord w) :
    Token.Valid ⟨wordKind (String.ofList w), line, String.ofList w⟩ := by
  unfold wordKind
  split
  · rename_i k hk
    exact Keyword.spelling_of_ofSpelling? hk
  · rename_i hk
    refine ⟨by rwa [String.toList_ofList], ?_⟩
    intro k (hspelling : String.ofList w = k.spelling)
    rw [hspelling, Keyword.ofSpelling?_spelling] at hk
    exact absurd hk nofun

/-- Every token that is read on a line is valid. -/
theorem valid_next {line : Nat} {c : Char} {cs : List Char} (hline : '\n' ∉ cs) {t : Token}
    (h : (next line c cs).1 = some t) : t.Valid ∧ t.line = line := by
  unfold next at h
  split at h
  · cases h
  split at h
  · cases h
    exact ⟨rfl, rfl⟩
  split at h
  · cases h
    exact ⟨rfl, rfl⟩
  split at h
  · cases h
    exact ⟨rfl, rfl⟩
  split at h
  · rename_i hquote
    cases h
    refine ⟨?_, rfl⟩
    have hstop : c ∉ cs.takeWhile (· ≠ c) := fun hc => by simpa using List.mem_takeWhile_imp hc
    have htext : '\n' ∉ cs.takeWhile (· ≠ c) := fun hc => hline (List.takeWhile_subset _ hc)
    show '\n' ∉ (String.ofList (cs.takeWhile (· ≠ c))).toList ∧ ¬(_ ∈ _ ∧ _ ∈ _)
    rw [String.toList_ofList]
    refine ⟨htext, ?_⟩
    rcases hquote with rfl | rfl
    · exact fun hboth => hstop hboth.1
    · exact fun hboth => hstop hboth.2
  split at h
  · rename_i hword
    cases h
    refine ⟨valid_word line ?_, rfl⟩
    exact isWord_cons_iff.2 ⟨hword, fun d hd => List.mem_takeWhile_imp hd⟩
  split at h
  · rename_i hnumber
    cases h
    refine ⟨?_, rfl⟩
    show (String.ofList _).toList ≠ [] ∧ IsNumeral (String.ofList _).toList
    rw [String.toList_ofList]
    exact ⟨nofun, isNumeral_cutNumber hnumber cs⟩
  · cases h

theorem valid_scanLine {line : Nat} {cs : List Char} (hline : '\n' ∉ cs) :
    ∀ t ∈ scanLine line cs, t.Valid ∧ t.line = line := by
  induction cs using scanLine.induct with
  | line => exact line
  | case1 => simp [scanLine]
  | case2 c cs ih =>
    have hcs := List.not_mem_of_not_mem_cons hline
    rw [scanLine_cons, List.forall_mem_append]
    refine ⟨fun t ht => valid_next hcs (Option.mem_toList.1 ht), ih ?_⟩
    exact fun hrest => hcs ((next_suffix line c cs).subset hrest)

theorem valid_scanLines {first : Nat} {ls : List (List Char)} (hls : ∀ l ∈ ls, '\n' ∉ l) :
    (∀ t ∈ scanLines first ls, t.Valid ∧ first ≤ t.line) ∧
      (scanLines first ls).Pairwise (·.line ≤ ·.line) := by
  induction ls generalizing first with
  | nil => simp [scanLines]
  | cons l ls ih =>
    obtain ⟨hl, hls⟩ := List.forall_mem_cons.1 hls
    have hline : ∀ t ∈ scanLine first l, t.Valid ∧ t.line = first := valid_scanLine hl
    obtain ⟨hvalid, horder⟩ : (∀ t ∈ scanLines (first + 1) ls, t.Valid ∧ first + 1 ≤ t.line) ∧
        (scanLines (first + 1) ls).Pairwise (·.line ≤ ·.line) := ih hls
    rw [scanLines, List.forall_mem_append, List.pairwise_append]
    refine ⟨⟨fun t ht => ⟨(hline t ht).1, (hline t ht).2.ge⟩, fun t ht => ?_⟩, ?_, horder, ?_⟩
    · obtain ⟨ht, hfirst⟩ := hvalid t ht
      exact ⟨ht, by omega⟩
    · exact List.pairwise_of_forall_mem_list fun t ht u hu => by rw [(hline t ht).2, (hline u hu).2]
    · intro t ht u hu
      have := (hvalid u hu).2
      rw [(hline t ht).2]
      omega

/-! ### Reading and writing -/

theorem scan_of_layout {ts : List Token} {source : String} (hvalid : ∀ t ∈ ts, t.Valid)
    (h : IsLayout 1 ts source.toList) : scan source = ts :=
  scanLines_of_layout h hvalid

theorem valid_scan (source : String) :
    (∀ t ∈ scan source, t.Valid ∧ 1 ≤ t.line) ∧ (scan source).Pairwise (·.line ≤ ·.line) :=
  valid_scanLines fun _ => not_mem_of_mem_lines

/-- Reading inverts every layout.  Valid tokens are read back from every text that lays them out, and
    every list of valid tokens that goes down the lines has such a text.  In turn the tokens that are read
    from any source are valid and go down the lines, so that they can be written in a layout, and are
    read back from it. -/
theorem scan_inverts_layouts :
    (∀ (ts : List Token) (source : String), (∀ t ∈ ts, t.Valid) → IsLayout 1 ts source.toList →
      scan source = ts) ∧
    (∀ ts : List Token, (∀ t ∈ ts, t.Valid) → (∀ t ∈ ts, 1 ≤ t.line) →
      ts.Pairwise (·.line ≤ ·.line) → IsLayout 1 ts (render 1 ts)) ∧
    (∀ source : String, (∀ t ∈ scan source, t.Valid ∧ 1 ≤ t.line) ∧
      (scan source).Pairwise (·.line ≤ ·.line) ∧
      scan (String.ofList (render 1 (scan source))) = scan source) := by
  refine ⟨fun ts source => scan_of_layout, fun ts => isLayout_render, ?_⟩
  intro source
  obtain ⟨hvalid, horder⟩ := valid_scan source
  refine ⟨hvalid, horder, ?_⟩
  apply scan_of_layout fun t ht => (hvalid t ht).1
  rw [String.toList_ofList]
  exact isLayout_render (fun t ht => (hvalid t ht).1) (fun t ht => (hvalid t ht).2) horder

/-- Two lines of a file: a text that holds the other kind of quotes and a `#`, a comment, and a line end of
    two characters. -/
def quotedLines : String := "say : 'a \"#\" b'\t1. # note\r\n\x7d"

/-- The tokens on these lines. -/
def quotedTokens : List Token :=
  [⟨.identifier, 1, "say"⟩, ⟨.colon, 1, ":"⟩, ⟨.text, 1, "a \"#\" b"⟩, ⟨.number, 1, "1."⟩,
    ⟨.rightBrace, 2, "\x7d"⟩]

theorem isLayout_quotedLines : IsLayout 1 quotedTokens quotedLines.toList := by
  have hspace (cs : List Char) : StartsBlank (' ' :: cs) := ⟨' ', rfl, by decide⟩
  have hcomment : IsLine [] (' ' :: '#' :: " note".toList) :=
    .blank (by decide) (by decide) (.comment (by decide))
  have hnumber : IsLine [⟨.number, 1, "1."⟩] ("1.".toList ++ ' ' :: '#' :: " note".toList) :=
    .token (.plain nofun) hcomment fun _ => hspace _
  have htext : IsLine [⟨.text, 1, "a \"#\" b"⟩, ⟨.number, 1, "1."⟩]
      ('\'' :: "a \"#\" b".toList ++ ['\''] ++ '\t' :: ("1.".toList ++ ' ' :: '#' :: " note".toList)) :=
    .token (.quoted rfl (.inr rfl) (by decide)) (.blank (by decide) (by decide) hnumber)
      fun _ => ⟨'\t', rfl, by decide⟩
  have hcolon := IsLine.token (t := ⟨.colon, 1, ":"⟩) (.plain nofun)
    (.blank (by decide) (by decide) htext) fun _ => hspace _
  have hword := IsLine.token (t := ⟨.identifier, 1, "say"⟩) (.plain nofun)
    (.blank (by decide) (by decide) hcolon) fun _ => hspace _
  have hbrace : IsLayout 2 [⟨.rightBrace, 2, "\x7d"⟩] ("\x7d".toList ++ []) :=
    .last (.token (.plain nofun) .nil nofun) (by decide)
  exact .line hword (by decide) (.inr rfl) hbrace

theorem quotedTokens_valid : ∀ t ∈ quotedTokens, t.Valid := by
  have hsay (k : Keyword) : "say" ≠ k.spelling := by
    intro h
    have hnone : Keyword.ofSpelling? "say" = none := by decide
    rw [h, Keyword.ofSpelling?_spelling] at hnone
    exact absurd hnone nofun
  have hone : ∀ d ∈ ['1'], d.isDigit = true := List.forall_mem_singleton.2 rfl
  have hnone : ∀ d ∈ ([] : List Char), d.isDigit = true := by simp
  have hnumeral : IsNumeral (['1'] ++ '.' :: []) := (isNumeral_of_digits hone hnone).2
  simp only [quotedTokens, List.forall_mem_cons]
  exact ⟨⟨by decide, hsay⟩, rfl, ⟨by decide, by decide⟩, ⟨by decide, hnumeral⟩, rfl, nofun⟩

/-- The tokens on these lines are read from them. -/
theorem quotedLines_scanned :
    (∀ t ∈ quotedTokens, t.Valid) ∧ IsLayout 1 quotedTokens quotedLines.toList ∧
      scan quotedLines = quotedTokens :=
  ⟨quotedTokens_valid, isLayout_quotedLines,
    scan_inverts_layouts.1 quotedTokens quotedLines quotedTokens_valid isLayout_quotedLines⟩

end BehaviorTree.Source
