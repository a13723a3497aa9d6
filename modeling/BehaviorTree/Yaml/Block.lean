import BehaviorTree.Yaml.Placed

namespace BehaviorTree.Yaml

/-!
# Block scalars

A literal scalar is a block of lines that are read as they are; in a folded one, a line break
between two lines that begin with no blank becomes a blank.  The header of a block says what becomes
of the line breaks at its end, and it can say how far the block is indented; otherwise the first
line that holds something does.
-/

/-- What becomes of the line breaks at the end of a block. -/
inductive Chomping where
  /-- The first is kept. -/
  | clip
  /-- None is kept. -/
  | strip
  /-- All are kept. -/
  | keep

/-- The chomping that a header begins with, and what follows it. -/
def chomping? : List Placed → Option (Chomping × List Placed)
  | [] => none
  | c :: cs =>
    if c.char = '+' then some (.keep, cs) else if c.char = '-' then some (.strip, cs) else none

/-- The width that a header begins with, and what follows it. -/
def width? : List Placed → Option (Nat × List Placed)
  | [] => none
  | c :: cs => if c.char.isDigit then some (c.char.toNat - '0'.toNat, cs) else none

/-- The chomping and the width in a header, in either order, and the line after it.  A width that is
    not written is zero, and no other is. -/
def header? (cs : List Placed) : Option (Chomping × Nat × List Placed) :=
  match chomping? cs with
  | some (chomping, r) =>
    match width? r with
    | some (n, r) => if n = 0 then none else (nextLine? r).map (chomping, n, ·)
    | none => (nextLine? r).map (chomping, 0, ·)
  | none =>
    match width? cs with
    | some (n, r) =>
      let (chomping, r) := (chomping? r).getD (.clip, r)
      if n = 0 then none else (nextLine? r).map (chomping, n, ·)
    | none => (nextLine? cs).map (.clip, 0, ·)

/-- What stands before a line of a block. -/
structure Lead where
  /-- The line breaks of empty lines. -/
  breaks : List Char
  /-- The column of the blanks that go furthest to the right. -/
  reach : Nat
  rest : List Placed

/-- The empty lines and the indentation before a line of a block that begins at column `indent`, or
    anywhere while `indent` is zero.  A tab is no indentation. -/
def lead (indent reach : Nat) : List Placed → Option Lead
  | [] => some ⟨[], reach, []⟩
  | c :: cs =>
    if (indent = 0 ∨ c.column < indent) ∧ c.char = ' ' then
      lead indent (max reach (c.column + 1)) cs
    else if (indent = 0 ∨ c.column < indent) ∧ c.char = '\t' then none
    else if c.isBreak then
      (lead indent reach cs).map fun l => { l with breaks := c.char :: l.breaks }
    else some ⟨[], reach, c :: cs⟩

/-- What stands between two lines of a block, where `first` is the line break of the upper one and
    `others` are those of the empty lines below it. -/
def between (folds : Bool) (first others : List Char) : List Char :=
  if folds && first = ['\n'] then if others.isEmpty then [' '] else others else first ++ others

/-- The line breaks that are kept at the end of a block. -/
def Chomping.tail (first others : List Char) : Chomping → List Char
  | .clip => first
  | .strip => []
  | .keep => first ++ others

/-- The further lines of a block at column `indent`, and what follows them.  The line before them
    ends with the line break `first`, if there was one, and began with a blank or not. -/
def blockLines (isFolded : Bool) (chomping : Chomping) (indent : Nat) (first others : List Char)
    (isIndented : Bool) (cs : List Placed) : Option (List Char × List Placed) :=
  match cs with
  | [] => some (chomping.tail first others, [])
  | c :: r =>
    if c.column ≠ indent then some (chomping.tail first others, c :: r)
    else
      let gap := between (isFolded && !isIndented && !c.isBlank) first others
      let line := chars ((c :: r).takeWhile (!·.isBreak))
      let below := (c :: r).dropWhile (!·.isBreak)
      (lead indent 0 (below.drop 1)).bind fun l =>
        if _ : l.rest.length < (c :: r).length then
          (blockLines isFolded chomping indent (chars (below.take 1)) l.breaks c.isBlank l.rest).map
            fun (text, rest) => (gap ++ line ++ text, rest)
        else none
termination_by cs.length
decreasing_by assumption

/-- The text of a block after its mark, and what follows it.  Its lines begin at `margin` or to the
    right of it. -/
def block (isFolded : Bool) (margin : Nat) (cs : List Placed) :
    Option (List Char × List Placed) := do
  let (chomping, width, r) ← header? cs
  let l ← lead (if width = 0 then 0 else margin - 1 + width) 0 r
  let indent := if width = 0 then max (max l.reach margin) 1 else margin - 1 + width
  blockLines isFolded chomping indent [] l.breaks false l.rest

end BehaviorTree.Yaml
