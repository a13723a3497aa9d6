import BehaviorTree.Source.Token
import BehaviorTree.Proofs.Decimal.Numeral
import BehaviorTree.Proofs.Text.Blank

namespace BehaviorTree.Source

/-!
# Layouts of tokens

What a tree file looks like that holds given tokens, apart from how it is read.

* `Token.Valid` — the tokens that can be written;
* `Writes` — how a token is written;
* `IsLine`, `IsLayout` — texts that write tokens one after the other on their lines, with white space
  between them, and with any further white space, empty lines and comments;
* `render`, `isLayout_render` — one layout of every list of valid tokens that go down the lines.
-/

open Text (isBlank isLetter isNumeral)
open Decimal (IsNumeral)

/-! ### Valid tokens -/

/-- A letter or an underscore, and then letters, numerals and underscores. -/
def IsWord : List Char → Prop
  | [] => False
  | c :: cs =>
    (isLetter c = true ∨ c = '_') ∧ ∀ d ∈ cs, isLetter d = true ∨ isNumeral d = true ∨ d = '_'

instance : DecidablePred IsWord
  | [] => .isFalse id
  | _ :: cs => @instDecidableAnd _ _ inferInstance (List.decidableBAll _ cs)

/-- A token that can be written.  A word is a keyword exactly when it is spelled like one; a number has at
    most one point; and a text stays on its line and leaves out one kind of quotes. -/
def Token.Valid (t : Token) : Prop :=
  match t.kind with
  | .leftBrace => t.text = "\x7b"
  | .rightBrace => t.text = "\x7d"
  | .colon => t.text = ":"
  | .keyword k => t.text = k.spelling
  | .identifier => IsWord t.text.toList ∧ ∀ k : Keyword, t.text ≠ k.spelling
  | .number => t.text.toList ≠ [] ∧ IsNumeral t.text.toList
  | .text => '\n' ∉ t.text.toList ∧ ¬('"' ∈ t.text.toList ∧ '\'' ∈ t.text.toList)

/-! ### Texts that write tokens -/

/-- The characters write the token: a text between quotes that do not occur in it, and any other token
    as it is. -/
inductive Writes (t : Token) : List Char → Prop
  | plain : t.kind ≠ .text → Writes t t.text.toList
  | quoted {q : Char} : t.kind = .text → q = '"' ∨ q = '\'' → q ∉ t.text.toList →
    Writes t (q :: t.text.toList ++ [q])

/-- The characters begin with white space. -/
def StartsBlank (cs : List Char) : Prop := ∃ c ∈ cs.head?, isBlank c = true

/-- The characters write the tokens on one line, whose end is not among them. -/
inductive IsLine : List Token → List Char → Prop
  | nil : IsLine [] []
  | comment {cs : List Char} : '\n' ∉ cs → IsLine [] ('#' :: cs)
  | blank {c : Char} {ts : List Token} {cs : List Char} :
    isBlank c = true → c ≠ '\n' → IsLine ts cs → IsLine ts (c :: cs)
  | token {t : Token} {ts : List Token} {ds cs : List Char} :
    Writes t ds → IsLine ts cs → (ts ≠ [] → StartsBlank cs) → IsLine (t :: ts) (ds ++ cs)

/-- The characters write the tokens on the lines that they stand on, the first of which is `line`.  The
    last line need not have an end. -/
inductive IsLayout : Nat → List Token → List Char → Prop
  | last {line : Nat} {ts : List Token} {cs : List Char} :
    IsLine ts cs → (∀ t ∈ ts, t.line = line) → IsLayout line ts cs
  | line {line : Nat} {ts us : List Token} {cs ending ds : List Char} :
    IsLine ts cs → (∀ t ∈ ts, t.line = line) → ending = ['\n'] ∨ ending = ['\r', '\n'] →
      IsLayout (line + 1) us ds → IsLayout line (ts ++ us) (cs ++ ending ++ ds)

/-! ### One layout -/

/-- A token as it is written, a text between double quotes unless it holds some. -/
def Token.written (t : Token) : List Char :=
  match t.kind with
  | .text =>
    let q := if '"' ∈ t.text.toList then '\'' else '"'
    q :: t.text.toList ++ [q]
  | _ => t.text.toList

/-- Tokens from a line on: line ends up to the line of the next token, the token and a space. -/
def render (line : Nat) : List Token → List Char
  | [] => []
  | t :: ts => List.replicate (t.line - line) '\n' ++ (t.written ++ ' ' :: render t.line ts)

theorem writes_written {t : Token} (h : t.Valid) : Writes t t.written := by
  obtain ⟨kind, line, text⟩ := t
  cases kind with
  | text =>
    show Writes _ ((if '"' ∈ text.toList then '\'' else '"') :: text.toList ++ [_])
    obtain ⟨-, hquotes⟩ := h
    split
    · rename_i hdouble
      exact .quoted rfl (.inr rfl) fun hsingle => hquotes ⟨hdouble, hsingle⟩
    · rename_i hdouble
      exact .quoted rfl (.inl rfl) hdouble
  | _ => exact .plain nofun

theorem IsLayout.newline {line : Nat} {ts : List Token} {cs : List Char}
    (h : IsLayout (line + 1) ts cs) : IsLayout line ts ('\n' :: cs) :=
  .line .nil (by simp) (.inl rfl) h

theorem IsLayout.newlines {line k : Nat} {ts : List Token} {cs : List Char}
    (h : IsLayout (line + k) ts cs) : IsLayout line ts (List.replicate k '\n' ++ cs) := by
  induction k generalizing line with
  | zero => exact h
  | succ k ih =>
    apply IsLayout.newline
    exact ih (by rwa [Nat.add_right_comm])

theorem IsLayout.token {t : Token} {ts : List Token} {ds cs : List Char} (hwrites : Writes t ds)
    (h : IsLayout t.line ts cs) : IsLayout t.line (t :: ts) (ds ++ ' ' :: cs) := by
  have hspace {us : List Token} {es : List Char} (hline : IsLine us es) :
      IsLine (t :: us) (ds ++ ' ' :: es) :=
    .token hwrites (.blank (by decide) (by decide) hline) fun _ => ⟨' ', rfl, by decide⟩
  cases h with
  | last hline hlines => exact .last (hspace hline) (List.forall_mem_cons.2 ⟨rfl, hlines⟩)
  | @line _ us vs es ending fs hline hlines hending hrest =>
    have hall := IsLayout.line (hspace hline) (List.forall_mem_cons.2 ⟨rfl, hlines⟩) hending hrest
    simpa using hall

/-- Every list of valid tokens that goes down the lines has a layout. -/
theorem isLayout_render {line : Nat} {ts : List Token} (hvalid : ∀ t ∈ ts, t.Valid)
    (hfirst : ∀ t ∈ ts, line ≤ t.line) (horder : ts.Pairwise (·.line ≤ ·.line)) :
    IsLayout line ts (render line ts) := by
  induction ts generalizing line with
  | nil => exact .last .nil (by simp)
  | cons t ts ih =>
    obtain ⟨ht, hts⟩ := List.forall_mem_cons.1 hvalid
    obtain ⟨hbefore, horder⟩ := List.pairwise_cons.1 horder
    have hline := hfirst t List.mem_cons_self
    apply IsLayout.newlines
    rw [Nat.add_sub_cancel' hline]
    exact .token (writes_written ht) (ih hts hbefore horder)

end BehaviorTree.Source
