namespace BehaviorTree.Text

/-!
# What is left of a text

A reader takes a part from the front of a text and returns what follows it.  A `Read` says in its
type that less is left than there was, which is why a reader that calls itself on the rest comes to
an end.
-/

/-- A part of a text of length `n` and what follows it, which is shorter. -/
abbrev Read (α : Type) (n : Nat) := Option (α × { rest : List Char // rest.length < n })

/-- Accepts a rest that is shorter. -/
def accept {α : Type} (a : α) (rest : List Char) (n : Nat) : Read α n :=
  if h : rest.length < n then some (a, ⟨rest, h⟩) else none

theorem length_dropWhile_le {α : Type} (p : α → Bool) (xs : List α) :
    (xs.dropWhile p).length ≤ xs.length := (List.dropWhile_suffix p).length_le

end BehaviorTree.Text
