import BehaviorTree.Text.Quoted
import Mathlib.Data.List.TakeWhile

namespace BehaviorTree.Text

/-!
# Delimited texts

A way to write things is delimited if the texts of two things that stand at the beginning of one text
tell that the things are the same, and where they end.  What follows may have to be of a certain form for
that.

* `delimited_before` — texts that are followed by a character that they do not have;
* `Delimited.flatMap` — lists, written element by element;
* `delimited_quoteChar`, `quote_inj` — quoted characters and quoted texts.
-/

/-- Things with `P` can be told apart by their texts, and cut off from what follows, if that has `Q`. -/
def Delimited {α : Type*} (P : α → Prop) (Q : List Char → Prop) (f : α → List Char) : Prop :=
  ∀ ⦃a b xs ys⦄, P a → P b → Q xs → Q ys → f a ++ xs = f b ++ ys → a = b ∧ xs = ys

/-- The longest beginning of certain characters ends where it should. -/
theorem takeWhile_stop {p : Char → Bool} {ds cs : List Char} (hds : ∀ d ∈ ds, p d = true)
    (hcs : ∀ c ∈ cs.head?, p c = false) :
    (ds ++ cs).takeWhile p = ds ∧ (ds ++ cs).dropWhile p = cs := by
  rw [List.takeWhile_append_of_pos hds, List.dropWhile_append_of_pos hds]
  cases cs with
  | nil => simp
  | cons c cs =>
    have hc := hcs c rfl
    rw [List.takeWhile_cons_of_neg (by simp [hc]), List.dropWhile_cons_of_neg (by simp [hc])]
    simp

/-- Texts of certain characters, before a character of another kind. -/
theorem delimited_until (p : Char → Bool) :
    Delimited (fun cs => ∀ c ∈ cs, p c = true) (fun xs => ∀ c ∈ xs.head?, p c = false) id := by
  intro a b xs ys ha hb hxs hys h
  obtain ⟨htake, hdrop⟩ := takeWhile_stop ha hxs
  obtain ⟨htake', hdrop'⟩ := takeWhile_stop hb hys
  have hsame : a ++ xs = b ++ ys := h
  rw [hsame] at htake hdrop
  exact ⟨htake.symm.trans htake', hdrop.symm.trans hdrop'⟩

/-- Texts without certain characters, before one of these. -/
theorem delimited_before (stops : List Char) :
    Delimited (fun cs => ∀ c ∈ stops, c ∉ cs) (fun xs => ∃ c ∈ stops, xs.head? = some c) id := by
  intro a b xs ys ha hb hxs hys h
  have hwithin {cs : List Char} (hcs : ∀ c ∈ stops, c ∉ cs) :
      ∀ c ∈ cs, decide (c ∉ stops) = true :=
    fun c hc => decide_eq_true fun hstop => hcs c hstop hc
  have hends {zs : List Char} (hzs : ∃ c ∈ stops, zs.head? = some c) :
      ∀ c ∈ zs.head?, decide (c ∉ stops) = false := by
    obtain ⟨stop, hstop, hhead⟩ := hzs
    intro c hc
    obtain rfl := Option.some.inj (hc.symm.trans hhead)
    exact decide_eq_false (not_not_intro hstop)
  exact delimited_until _ (hwithin ha) (hwithin hb) (hends hxs) (hends hys) h

/-- Lists are delimited if their elements are, where no element can begin at the end of a list. -/
theorem Delimited.flatMap {α : Type*} {P : α → Prop} {Q R : List Char → Prop} {f : α → List Char}
    (hf : Delimited P Q f) (hend : ∀ xs, R xs → Q xs) (hnext : ∀ a xs, P a → Q (f a ++ xs))
    (hstop : ∀ a xs, P a → ¬ R (f a ++ xs)) :
    Delimited (fun as : List α => ∀ a ∈ as, P a) R fun as => as.flatMap f := by
  intro as bs xs ys has hbs hxs hys h
  induction as generalizing bs with
  | nil =>
    cases bs with
    | nil => exact ⟨rfl, h⟩
    | cons b bs =>
      obtain rfl : xs = f b ++ (bs.flatMap f ++ ys) := by simpa using h
      exact absurd hxs (hstop b _ (hbs b List.mem_cons_self))
  | cons a as ih =>
    obtain ⟨ha, has⟩ := List.forall_mem_cons.1 has
    have hfollows (cs : List α) (zs : List Char) (hcs : ∀ c ∈ cs, P c) (hzs : R zs) :
        Q (cs.flatMap f ++ zs) := by
      cases cs with
      | nil => exact hend zs hzs
      | cons c cs =>
        rw [List.flatMap_cons, List.append_assoc]
        exact hnext c _ (hcs c List.mem_cons_self)
    cases bs with
    | nil =>
      obtain rfl : f a ++ (as.flatMap f ++ xs) = ys := by simpa using h
      exact absurd hys (hstop a _ ha)
    | cons b bs =>
      obtain ⟨hb, hrestb⟩ := List.forall_mem_cons.1 hbs
      simp only [List.flatMap_cons, List.append_assoc] at h
      obtain ⟨rfl, hrest⟩ := hf ha hb (hfollows as xs has hxs) (hfollows bs ys hrestb hys) h
      obtain ⟨rfl, htail⟩ := ih has hrestb hrest
      exact ⟨rfl, htail⟩

/-! ### Quoted texts -/

/-- The number that hexadecimal digits write. -/
def hexValue (cs : List Char) : Nat := cs.foldl (fun n c => 16 * n + (digitValue? 16 c).getD 0) 0

theorem hexValue_hexadecimal (n : Nat) : hexValue (hexadecimal n) = n := by
  induction n using Nat.strongRecOn with
  | ind n ih =>
    have hdigit (d : Nat) (hd : d < 16) : (digitValue? 16 (hexDigit d)).getD 0 = d := by
      rw [digitValue?_hexDigit d hd]
      rfl
    rw [hexadecimal]
    split
    · next hsmall =>
      simp only [hexValue, List.foldl_cons, List.foldl_nil, hdigit n hsmall]
      omega
    · next hlarge =>
      have hquotient := ih (n / 16) (by omega)
      unfold hexValue at hquotient ⊢
      rw [List.foldl_append, hquotient, List.foldl_cons, List.foldl_nil,
        hdigit (n % 16) (Nat.mod_lt n (by decide))]
      omega

theorem exists_of_mem_hexadecimal {n : Nat} {c : Char} (h : c ∈ hexadecimal n) :
    ∃ d < 16, c = hexDigit d := by
  induction n using Nat.strongRecOn with
  | ind n ih =>
    rw [hexadecimal] at h
    split at h
    · next hsmall => exact ⟨n, hsmall, List.mem_singleton.1 h⟩
    · next hlarge =>
      rcases List.mem_append.1 h with h | h
      · exact ih (n / 16) (by omega) h
      · exact ⟨n % 16, Nat.mod_lt n (by decide), List.mem_singleton.1 h⟩

/-- What a backslash and the characters after it stand for, and what follows them. -/
def unescape : List Char → Option (Char × List Char)
  | 't' :: cs => some ('\t', cs)
  | 'n' :: cs => some ('\n', cs)
  | 'r' :: cs => some ('\r', cs)
  | '0' :: cs => some (Char.ofNat 0, cs)
  | 'u' :: '{' :: cs =>
    some (Char.ofNat (hexValue (cs.takeWhile (· ≠ '}'))), (cs.dropWhile (· ≠ '}')).tail)
  | c :: cs => some (c, cs)
  | [] => none

/-- The first character of quoted text, and what follows it. -/
def unquoteChar : List Char → Option (Char × List Char)
  | '\\' :: cs => unescape cs
  | c :: cs => some (c, cs)
  | [] => none

/-- Every quoted character can be read back. -/
theorem unquoteChar_quoteChar (c : Char) (cs : List Char) :
    unquoteChar (quoteChar c ++ cs) = some (c, cs) := by
  unfold quoteChar
  split
  · next h => rw [h]; rfl
  split
  · next h => rw [h]; rfl
  split
  · next h => rw [h]; rfl
  split
  · next h => rw [h]; rfl
  split
  · next h => rw [h]; rfl
  split
  · next h =>
    have hzero : c = Char.ofNat 0 := by rw [← h, Char.ofNat_toNat]
    rw [hzero]
    rfl
  split
  · next hbackslash _ _ _ _ _ =>
    rw [List.singleton_append, unquoteChar]
    · exact fun h => hbackslash h
  · have hdigits : ∀ d ∈ hexadecimal c.toNat, decide (d ≠ '}') = true := by
      intro d hd
      obtain ⟨k, hk, rfl⟩ := exists_of_mem_hexadecimal hd
      have hbrace : ∀ k < 16, hexDigit k ≠ '}' := by decide
      exact decide_eq_true (hbrace k hk)
    obtain ⟨htake, hdrop⟩ :=
      takeWhile_stop hdigits (show ∀ d ∈ ('}' :: cs).head?, decide (d ≠ '}') = false by simp)
    simp only [List.cons_append, List.nil_append, List.append_assoc, unquoteChar, unescape]
    rw [htake, hdrop, hexValue_hexadecimal, Char.ofNat_toNat, List.tail_cons]

theorem delimited_quoteChar : Delimited (fun _ => True) (fun _ => True) quoteChar := by
  intro c d xs ys _ _ _ _ h
  have hread := unquoteChar_quoteChar c xs
  rw [h, unquoteChar_quoteChar] at hread
  obtain ⟨rfl, rfl⟩ := Prod.mk.inj (Option.some.inj hread)
  exact ⟨rfl, rfl⟩

/-- No quoted character begins with the quote, and none has a line end. -/
theorem quoteChar_begins (c : Char) : ∃ d ds, quoteChar c = d :: ds ∧ d ≠ '"' ∧ '\n' ∉ d :: ds := by
  unfold quoteChar
  split
  · exact ⟨'\\', ['"'], rfl, by decide, by decide⟩
  split
  · exact ⟨'\\', ['\\'], rfl, by decide, by decide⟩
  split
  · exact ⟨'\\', ['t'], rfl, by decide, by decide⟩
  split
  · exact ⟨'\\', ['n'], rfl, by decide, by decide⟩
  split
  · exact ⟨'\\', ['r'], rfl, by decide, by decide⟩
  split
  · exact ⟨'\\', ['0'], rfl, by decide, by decide⟩
  split
  · next hquote _ _ hnewline _ _ _ =>
    exact ⟨c, [], rfl, hquote, by simpa using Ne.symm hnewline⟩
  · have hdigits : '\n' ∉ hexadecimal c.toNat := by
      intro hmem
      obtain ⟨k, hk, hdigit⟩ := exists_of_mem_hexadecimal hmem
      have hnewline : ∀ k < 16, '\n' ≠ hexDigit k := by decide
      exact hnewline k hk hdigit
    exact ⟨'\\', _, rfl, by decide, by simpa using hdigits⟩

/-- Quoted texts are delimited, whatever follows them. -/
theorem delimited_quote : Delimited (fun _ => True) (fun _ => True) fun s => (quote s).toList := by
  intro s t xs ys _ _ _ _ h
  have hbody := delimited_quoteChar.flatMap (R := fun xs => xs.head? = some '"')
    (fun _ _ => trivial) (fun _ _ _ => trivial) (by
      intro c xs _ hquote
      obtain ⟨d, ds, hbegins, hne, -⟩ := quoteChar_begins c
      rw [hbegins] at hquote
      exact hne (Option.some.inj hquote))
  simp only [quote, String.toList_ofList, List.cons_append, List.append_assoc,
    List.cons.injEq, true_and, List.nil_append] at h
  obtain ⟨hchars, hrest⟩ := hbody (fun _ _ => trivial) (fun _ _ => trivial) rfl rfl h
  exact ⟨String.toList_inj.1 hchars, (List.cons.inj hrest).2⟩

theorem newline_not_mem_quote (s : String) : '\n' ∉ (quote s).toList := by
  have hchars : '\n' ∉ s.toList.flatMap quoteChar := by
    intro hmem
    obtain ⟨c, -, hc⟩ := List.mem_flatMap.1 hmem
    obtain ⟨d, ds, hbegins, -, hnewline⟩ := quoteChar_begins c
    rw [hbegins] at hc
    exact hnewline hc
  simp [quote, hchars]

end BehaviorTree.Text
