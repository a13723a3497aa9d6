import BehaviorTree.Kind
import BehaviorTree.Text.Letter
import BehaviorTree.Text.Rest

namespace BehaviorTree.Source

/-!
# Tokens of a tree file

A tree file is read as a list of tokens, each with the line it stands on.  `scan` never fails: a
text that is not closed ends with its line, a `#` hides the rest of its line, and characters outside
the language are passed over.

* `lines` cuts a file at its line ends, `\n` or `\r\n`.
* `next` takes at each place the longest word or number there is.
-/

/-! ### Words -/

/-- The words that begin a node. -/
inductive NodeWord where
  | inner (kind : InnerKind)
  | leaf (kind : LeafKind)
deriving DecidableEq, Repr

/-- The words with a meaning of their own. -/
inductive Keyword where
  | tree
  | node (word : NodeWord)
deriving DecidableEq, Repr

/-- The kind of a node that begins with a word. -/
def NodeWord.kind : NodeWord → Kind
  | .inner kind => kind.kind
  | .leaf kind => kind.kind

/-- How a word is written. -/
def NodeWord.spelling (word : NodeWord) : String := word.kind.name

/-- How a keyword is written. -/
def Keyword.spelling : Keyword → String
  | .tree => "tree"
  | .node word => word.spelling

/-- The keyword that is written like this. -/
def Keyword.ofSpelling? : String → Option Keyword
  | "tree" => some .tree
  | "Sequence" => some (.node (.inner .sequence))
  | "Selector" => some (.node (.inner .selector))
  | "Action" => some (.node (.leaf .action))
  | "Condition" => some (.node (.leaf .condition))
  | "Parallel" => some (.node (.inner .parallel))
  | "Inverter" => some (.node (.inner .inverter))
  | "Repeat" => some (.node (.inner .repeater))
  | "Retry" => some (.node (.inner .retry))
  | "Timeout" => some (.node (.inner .timeout))
  | _ => none

@[simp]
theorem Keyword.ofSpelling?_spelling (k : Keyword) : ofSpelling? k.spelling = some k := by
  cases k with
  | tree => rfl
  | node word =>
    cases word with
    | inner kind => cases kind <;> rfl
    | leaf kind => cases kind <;> rfl

/-! ### Tokens -/

/-- The kind of a token. -/
inductive TokenKind where
  | keyword (k : Keyword)
  | identifier
  /-- A text between quotes, which are not part of it. -/
  | text
  | number
  | leftBrace
  | rightBrace
  | colon
deriving DecidableEq, Repr

/-- The kind of a token in running text. -/
def TokenKind.describe : TokenKind → String
  | .keyword k => "keyword `" ++ k.spelling ++ "`"
  | .identifier => "identifier"
  | .text => "string"
  | .number => "number"
  | .leftBrace => "`\x7b`"
  | .rightBrace => "`\x7d`"
  | .colon => "`:`"

/-- A token with the line it stands on, counted from one. -/
structure Token where
  kind : TokenKind
  line : Nat
  text : String
deriving DecidableEq, Repr

/-! ### Lines -/

/-- The lines of a file without their ends.  What follows the last line end is a line unless it is
    empty. -/
def lines : List Char → List (List Char)
  | [] => []
  | '\n' :: cs => [] :: lines cs
  | '\r' :: '\n' :: cs => [] :: lines cs
  | c :: cs =>
    match lines cs with
    | [] => [[c]]
    | l :: ls => (c :: l) :: ls

/-- Whether a word can begin with `c`. -/
def isWordStart (c : Char) : Bool := Text.isLetter c || c = '_'

/-- Whether a word can go on with `c`. -/
def isWordChar (c : Char) : Bool := Text.isLetter c || Text.isNumeral c || c = '_'

/-- The kind of a word. -/
def wordKind (word : String) : TokenKind :=
  match Keyword.ofSpelling? word with
  | some k => .keyword k
  | none => .identifier

/-- The rest of a number and what follows it: digits, and one point among them unless there was a
    point before. -/
def cutNumber (hasPoint : Bool) (cs : List Char) : List Char × List Char :=
  let digits := cs.takeWhile Char.isDigit
  match cs.dropWhile Char.isDigit with
  | '.' :: r =>
    if hasPoint then (digits, '.' :: r)
    else (digits ++ '.' :: r.takeWhile Char.isDigit, r.dropWhile Char.isDigit)
  | r => (digits, r)

theorem length_cutNumber_le (hasPoint : Bool) (cs : List Char) :
    (cutNumber hasPoint cs).2.length ≤ cs.length := by
  have hle := Text.length_dropWhile_le Char.isDigit cs
  unfold cutNumber
  split
  · rename_i r hr
    rw [hr] at hle
    have hr' := Text.length_dropWhile_le Char.isDigit r
    simp only [List.length_cons] at hle
    split
    · simpa using hle
    · show (r.dropWhile Char.isDigit).length ≤ cs.length
      omega
  · exact hle

/-- The token that begins with `c`, if one does, and what is left of its line. -/
def next (line : Nat) (c : Char) (cs : List Char) : Option Token × List Char :=
  if c = '#' then (none, [])
  else if c = '{' then (some ⟨.leftBrace, line, "\x7b"⟩, cs)
  else if c = '}' then (some ⟨.rightBrace, line, "\x7d"⟩, cs)
  else if c = ':' then (some ⟨.colon, line, ":"⟩, cs)
  else if c = '"' ∨ c = '\'' then
    (some ⟨.text, line, String.ofList (cs.takeWhile (· ≠ c))⟩, (cs.dropWhile (· ≠ c)).tail)
  else if isWordStart c then
    let word := String.ofList (c :: cs.takeWhile isWordChar)
    (some ⟨wordKind word, line, word⟩, cs.dropWhile isWordChar)
  else if c.isDigit ∨ c = '.' then
    let (digits, rest) := cutNumber (c = '.') cs
    (some ⟨.number, line, String.ofList (c :: digits)⟩, rest)
  else (none, cs)

theorem length_next_le (line : Nat) (c : Char) (cs : List Char) :
    (next line c cs).2.length ≤ cs.length := by
  have hquote : (cs.dropWhile (· ≠ c)).tail.length ≤ cs.length := by
    rw [List.length_tail]
    exact Nat.le_trans (Nat.sub_le _ _) (Text.length_dropWhile_le _ _)
  unfold next
  split
  · exact Nat.zero_le _
  split
  · exact Nat.le_refl _
  split
  · exact Nat.le_refl _
  split
  · exact Nat.le_refl _
  split
  · exact hquote
  split
  · exact Text.length_dropWhile_le _ _
  split
  · exact length_cutNumber_le _ _
  · exact Nat.le_refl _

/-- The tokens of one line. -/
def scanLine (line : Nat) : List Char → List Token
  | [] => []
  | c :: cs => (next line c cs).1.toList ++ scanLine line (next line c cs).2
termination_by cs => cs.length
decreasing_by exact Nat.lt_succ_of_le (length_next_le line c cs)

/-- The tokens of lines that are counted from `first` on. -/
def scanLines (first : Nat) : List (List Char) → List Token
  | [] => []
  | l :: ls => scanLine first l ++ scanLines (first + 1) ls

/-- The tokens of a file. -/
def scan (source : String) : List Token := scanLines 1 (lines source.toList)

end BehaviorTree.Source
