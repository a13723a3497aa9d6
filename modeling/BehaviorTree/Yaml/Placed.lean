namespace BehaviorTree.Yaml

/-!
# Characters and their places

In a YAML file it matters where a character stands: columns say what belongs to what, and a key ends
on the line where it begins.  `place` gives every character of a file its place, and makes one
character of each line break.
-/

/-- A character of a file and where it stands. -/
structure Placed where
  char : Char
  line : Nat
  /-- The characters before it on its line. -/
  column : Nat
  /-- The bytes before it in the file. -/
  offset : Nat

/-- The character that ends a line, if `c` does: two of them are read as they are, and the others as
    line feeds. -/
def lineBreak? (c : Char) : Option Char :=
  if c = '\n' ∨ c = '\r' ∨ c = '\u0085' then some '\n'
  else if c = '\u2028' ∨ c = '\u2029' then some c
  else none

/-- The characters of a text that begins at some place.  A carriage return and the line feed after
    it are one line break. -/
def placeFrom (line column offset : Nat) : List Char → List Placed
  | [] => []
  | '\r' :: '\n' :: cs => ⟨'\n', line, column, offset⟩ :: placeFrom (line + 1) 0 (offset + 2) cs
  | c :: cs =>
    match lineBreak? c with
    | some b => ⟨b, line, column, offset⟩ :: placeFrom (line + 1) 0 (offset + c.utf8Size) cs
    | none => ⟨c, line, column, offset⟩ :: placeFrom line (column + 1) (offset + c.utf8Size) cs

/-- The characters of a file with their places. -/
def place (source : String) : List Placed := placeFrom 0 0 0 source.toList

namespace Placed

/-- Whether a character ends a line. -/
def isBreak (c : Placed) : Bool := (lineBreak? c.char).isSome

/-- Whether a character is a blank within a line. -/
def isBlank (c : Placed) : Bool := c.char = ' ' || c.char = '\t'

/-- Whether a character is the mark of a byte order at the start of a line, which counts for
    nothing. -/
def isOrderMark (c : Placed) : Bool := c.char = '\uFEFF' && c.column = 0

/-- Whether a character can stand in the name of an anchor or of a tag. -/
def isNameChar (c : Placed) : Bool := c.char.isAlphanum || c.char = '_' || c.char = '-'

end Placed

/-- The characters of some characters. -/
def chars (cs : List Placed) : List Char := cs.map Placed.char

/-- Whether nothing follows, or a blank, or a line break. -/
def atGap : List Placed → Bool
  | [] => true
  | c :: _ => c.isBlank || c.isBreak

/-- Whether some character comes next. -/
def beginsWith (char : Char) (cs : List Placed) : Bool := cs.head?.any (·.char = char)

/-- What follows blanks. -/
def skipBlanks (cs : List Placed) : List Placed := cs.dropWhile Placed.isBlank

/-- Whether a line begins here with three times the same character and a gap. -/
def isMarker (char : Char) : List Placed → Bool
  | a :: b :: c :: cs =>
    a.column = 0 && a.char = char && b.char = char && c.char = char && atGap cs
  | _ => false

/-- Whether a document starts or ends here. -/
def atDocumentEdge (cs : List Placed) : Bool := isMarker '-' cs || isMarker '.' cs

/-- What follows the rest of a line that holds nothing but blanks and a comment. -/
def nextLine? (cs : List Placed) : Option (List Placed) :=
  let r := skipBlanks cs
  match if beginsWith '#' r then r.dropWhile (!·.isBreak) else r with
  | [] => some []
  | c :: cs => if c.isBreak then some cs else none

/-- The characters that can stand in a YAML file. -/
def isPrintable (c : Char) : Bool :=
  let n := c.toNat
  n = 0x9 || n = 0xA || n = 0xD || n = 0x85 || (0x20 ≤ n && n ≤ 0x7E) ||
    (0xA0 ≤ n && n ≤ 0xFFFD) || 0x10000 ≤ n

end BehaviorTree.Yaml
