import BehaviorTree.Source.Tree

namespace BehaviorTree.Source

/-!
# Braces

How deep the tokens of a list lead into blocks, and what the two ways of skipping pass over.

* `nesting` — the number of open blocks after some tokens;
* `nesting_append`, `nesting_add` — the same for tokens that follow each other, and with more blocks
  around;
* `skipBlock_of_balanced` — the rest of a block is skipped up to its own closing brace;
* `skipNode_of_block` — a header and the block after it are skipped together.
-/

/-- The number of open blocks after the tokens, with `depth` open before them.  There is none when
    more blocks are closed than were open. -/
def nesting : Nat → List Token → Option Nat
  | depth, [] => some depth
  | depth, t :: ts =>
    match t.kind with
    | .leftBrace => nesting (depth + 1) ts
    | .rightBrace =>
      match depth with
      | 0 => none
      | depth + 1 => nesting depth ts
    | _ => nesting depth ts

/-- Every block that is opened is closed, and no other is. -/
def Balanced (ts : List Token) : Prop := nesting 0 ts = some 0

/-- Neither of the two braces. -/
def TokenKind.IsPlain (k : TokenKind) : Prop := k ≠ .leftBrace ∧ k ≠ .rightBrace

theorem TokenKind.isPlain_identifier : TokenKind.identifier.IsPlain := ⟨nofun, nofun⟩

theorem TokenKind.isPlain_colon : TokenKind.colon.IsPlain := ⟨nofun, nofun⟩

theorem TokenKind.isPlain_keyword (k : Keyword) : (TokenKind.keyword k).IsPlain := ⟨nofun, nofun⟩

theorem TokenKind.brace_cases (k : TokenKind) : k = .leftBrace ∨ k = .rightBrace ∨ k.IsPlain := by
  by_cases hleft : k = .leftBrace
  · exact .inl hleft
  · by_cases hright : k = .rightBrace
    · exact .inr (.inl hright)
    · exact .inr (.inr ⟨hleft, hright⟩)

section

variable {t : Token} {inner : Nat} (ts : List Token)

theorem nesting_plain (h : t.kind.IsPlain) : nesting inner (t :: ts) = nesting inner ts := by
  rw [nesting.eq_def]
  dsimp only
  split
  · exact absurd ‹_› h.1
  · exact absurd ‹_› h.2
  · rfl

theorem nesting_left (h : t.kind = .leftBrace) :
    nesting inner (t :: ts) = nesting (inner + 1) ts := by
  rw [nesting.eq_def]
  simp only [h]

theorem nesting_right (h : t.kind = .rightBrace) :
    nesting (inner + 1) (t :: ts) = nesting inner ts := by
  rw [nesting, h]

theorem skipBlock_plain (h : t.kind.IsPlain) : skipBlock inner (t :: ts) = skipBlock inner ts := by
  rw [skipBlock.eq_def]
  dsimp only
  split
  · exact absurd ‹_› h.1
  · exact absurd ‹_› h.2
  · rfl

theorem skipBlock_left (h : t.kind = .leftBrace) :
    skipBlock inner (t :: ts) = skipBlock (inner + 1) ts := by
  rw [skipBlock.eq_def]
  simp only [h]

theorem skipBlock_right (h : t.kind = .rightBrace) :
    skipBlock (inner + 1) (t :: ts) = skipBlock inner ts := by
  rw [skipBlock, h]

/-- The brace that closes the block ends the skipping. -/
theorem skipBlock_close (h : t.kind = .rightBrace) : skipBlock 0 (t :: ts) = ts := by
  rw [skipBlock, h]

theorem skipNode_plain (h : t.kind.IsPlain) : skipNode (t :: ts) = skipNode ts := by
  rw [skipNode]
  split
  · exact absurd ‹_› h.2
  · exact absurd ‹_› h.1
  · rfl

end

section

variable {depth depth' : Nat} {ts us : List Token}

theorem nesting_append (depth : Nat) (ts us : List Token) :
    nesting depth (ts ++ us) = (nesting depth ts).bind (nesting · us) := by
  induction ts generalizing depth with
  | nil => rfl
  | cons t ts ih =>
    rw [List.cons_append]
    rcases t.kind.brace_cases with ht | ht | ht
    · rw [nesting_left _ ht, nesting_left _ ht, ih]
    · cases depth with
      | zero => simp [nesting, ht]
      | succ depth => rw [nesting_right _ ht, nesting_right _ ht, ih]
    · rw [nesting_plain _ ht, nesting_plain _ ht, ih]

/-- More open blocks around make no difference. -/
theorem nesting_add (more : Nat) (h : nesting depth ts = some depth') :
    nesting (depth + more) ts = some (depth' + more) := by
  induction ts generalizing depth with
  | nil =>
    obtain rfl := Option.some.inj h
    rfl
  | cons t ts ih =>
    rcases t.kind.brace_cases with ht | ht | ht
    · rw [nesting_left _ ht] at h ⊢
      rw [Nat.add_right_comm]
      exact ih h
    · cases depth with
      | zero => simp [nesting, ht] at h
      | succ depth =>
        rw [nesting_right _ ht] at h
        rw [Nat.add_right_comm, nesting_right _ ht]
        exact ih h
    · rw [nesting_plain _ ht] at h ⊢
      exact ih h

/-- Where some tokens close no block from before, no first part of them does. -/
theorem nesting_of_prefix (h : nesting depth ts = some depth') (hus : us <+: ts) :
    ∃ open', nesting depth us = some open' := by
  obtain ⟨vs, rfl⟩ := hus
  rw [nesting_append, Option.bind_eq_some_iff] at h
  obtain ⟨open', hopen, -⟩ := h
  exact ⟨open', hopen⟩

end

theorem skipBlock_append {depth depth' : Nat} {ts : List Token}
    (h : nesting depth ts = some depth') (rest : List Token) :
    skipBlock depth (ts ++ rest) = skipBlock depth' rest := by
  induction ts generalizing depth with
  | nil =>
    obtain rfl := Option.some.inj h
    rfl
  | cons t ts ih =>
    rw [List.cons_append]
    rcases t.kind.brace_cases with ht | ht | ht
    · rw [nesting_left ts ht] at h
      rw [skipBlock_left _ ht, ih h]
    · cases depth with
      -- the tokens would close a block that they did not open
      | zero => simp [nesting, ht] at h
      | succ depth =>
        simp only [nesting, ht] at h
        rw [skipBlock_right _ ht, ih h]
    · rw [nesting_plain ts ht] at h
      rw [skipBlock_plain _ ht, ih h]

/-- The rest of a block is skipped up to its own closing brace. -/
theorem skipBlock_of_balanced {ts : List Token} (h : Balanced ts) {t : Token}
    (ht : t.kind = .rightBrace) (rest : List Token) : skipBlock 0 (ts ++ t :: rest) = rest := by
  rw [skipBlock_append h, skipBlock_close rest ht]

theorem skipNode_append {ts : List Token} (h : ∀ t ∈ ts, t.kind.IsPlain) (rest : List Token) :
    skipNode (ts ++ rest) = skipNode rest := by
  induction ts with
  | nil => rfl
  | cons t ts ih =>
    obtain ⟨ht, hts⟩ := List.forall_mem_cons.1 h
    rw [List.cons_append, skipNode_plain _ ht, ih hts]

/-- A header without braces is skipped together with the block after it. -/
theorem skipNode_of_block {header ts : List Token} {o c : Token}
    (hheader : ∀ t ∈ header, t.kind.IsPlain) (ho : o.kind = .leftBrace) (hts : Balanced ts)
    (hc : c.kind = .rightBrace) (rest : List Token) :
    skipNode (header ++ o :: (ts ++ c :: rest)) = rest := by
  rw [skipNode_append hheader, skipNode, ho]
  exact skipBlock_of_balanced hts hc rest

end BehaviorTree.Source
