import BehaviorTree.Text.Hexadecimal
import BehaviorTree.Yaml.Placed

namespace BehaviorTree.Yaml

/-!
# Plain and quoted scalars

The scalars that are made of words: quoted ones, and plain ones, which have no marks around them.
They can go on over several lines, and what stands between two words is then folded: a line break
becomes a blank, and of several line breaks all but the first are kept.
-/

/-! ### Between words -/

/-- Blanks and line breaks between two words. -/
structure Gap where
  /-- The blanks before the first line break. -/
  blanks : List Char := []
  /-- The first line break, of which nothing is left when a backslash hides it. -/
  first : Option (List Char) := none
  /-- The other line breaks. -/
  others : List Char := []

namespace Gap

/-- Nothing between. -/
def empty : Gap := {}

/-- A line break behind a backslash. -/
def hidden : Gap := { first := some [] }

/-- Whether there is a line break in a gap. -/
def isBroken (g : Gap) : Bool := g.first.isSome

/-- Whether there is nothing in a gap. -/
def isEmpty (g : Gap) : Bool := g.blanks.isEmpty && !g.isBroken

/-- A gap with one more blank or line break.  Blanks beside a line break do not count. -/
def add (g : Gap) (c : Placed) : Gap :=
  match c.isBreak, g.isBroken with
  | true, false => { first := some [c.char] }
  | true, true => { g with others := g.others ++ [c.char] }
  | false, false => { g with blanks := g.blanks ++ [c.char] }
  | false, true => g

/-- What a gap is folded into. -/
def text (g : Gap) : List Char :=
  match g.first with
  | none => g.blanks
  | some ['\n'] => if g.others.isEmpty then [' '] else g.others
  | some first => first ++ g.others

end Gap

/-! ### Plain scalars -/

/-- The characters that make lists and maps within a line. -/
def isFlowMark (c : Char) : Bool := c = ',' || c = '[' || c = ']' || c = '{' || c = '}'

/-- The other characters that no plain scalar begins with. -/
def isMark (c : Char) : Bool :=
  c = '#' || c = '&' || c = '*' || c = '!' || c = '|' || c = '>' || c = '\'' || c = '"' ||
    c = '%' || c = '@' || c.toNat = 0x60

/-- Whether a plain scalar begins here. -/
def beginsPlain (inFlow : Bool) : List Placed → Bool
  | [] => false
  | c :: cs =>
    if c.char = '-' then !cs.head?.any Placed.isBlank
    else if c.char = '?' || c.char = ':' then !inFlow && !atGap cs
    else !c.isBlank && !c.isBreak && !isFlowMark c.char && !isMark c.char

/-- Whether no word of a plain scalar goes on here: before a colon that a gap follows, and between
    brackets before the characters that belong to these. -/
def endsWord (inFlow : Bool) (c : Placed) (cs : List Placed) : Bool :=
  c.char = ':' && atGap cs || inFlow && isFlowMark c.char

/-- Whether a colon stands here that is neither in a word nor after one. -/
def isLostColon (inFlow : Bool) (c : Placed) (cs : List Placed) : Bool :=
  inFlow && c.char = ':' && cs.head?.any fun d => isFlowMark d.char || d.char = '?'

/-- Whether a plain scalar ends with the gap before this place: where its block ends, where a
    document starts or ends, and before a comment. -/
def endsPlain (inFlow : Bool) (margin : Nat) (cs : List Placed) : Bool :=
  (!inFlow && cs.head?.any (·.column < margin)) || atDocumentEdge cs || beginsWith '#' cs

/-- A scalar as it is read: its text, whether a line break follows it, and what follows that. -/
structure Words where
  text : List Char
  isBroken : Bool
  rest : List Placed

/-- Words with characters before them. -/
def Words.after (cs : List Char) (w : Words) : Words := { w with text := cs ++ w.text }

/-- The rest of a plain scalar after a gap.  Its lines begin at `margin` or to the right of it. -/
def plain (inFlow : Bool) (margin : Nat) (gap : Gap) : List Placed → Option Words
  | [] => some ⟨[], gap.isBroken, []⟩
  | c :: cs =>
    if c.isBlank || c.isBreak then
      if gap.isBroken && c.char = '\t' && c.column < margin then none
      else plain inFlow margin (gap.add c) cs
    else if !gap.isEmpty && endsPlain inFlow margin (c :: cs) then
      some ⟨[], gap.isBroken, c :: cs⟩
    else if isLostColon inFlow c cs then none
    else if endsWord inFlow c cs then some ⟨[], gap.isBroken, c :: cs⟩
    else (plain inFlow margin .empty cs).map (·.after (gap.text ++ [c.char]))

/-! ### Quoted scalars -/

/-- The rest of a text in single quotes after a gap.  A quote in the text is written twice. -/
def singleQuoted (gap : Gap) : List Placed → Option Words
  | [] => none
  | c :: cs =>
    if c.isBlank || c.isBreak then singleQuoted (gap.add c) cs
    else if atDocumentEdge (c :: cs) then none
    else if c.char = '\'' then
      match cs with
      | d :: ds =>
        if d.char = '\'' then (singleQuoted .empty ds).map (·.after (gap.text ++ ['\'']))
        else some ⟨gap.text, false, d :: ds⟩
      | [] => some ⟨gap.text, false, []⟩
    else (singleQuoted .empty cs).map (·.after (gap.text ++ [c.char]))

/-- The character of a code point in hexadecimal. -/
def ofCode? (digits : List Placed) : Option Char :=
  (Text.ofDigits? 16 (chars digits)).bind fun n =>
    if n.isValidChar then some (Char.ofNat n) else none

/-- The character that a letter after a backslash stands for. -/
def escaped? : Char → Option Char
  | '0' => some '\x00'
  | 'a' => some '\x07'
  | 'b' => some '\x08'
  | 't' | '\t' => some '\t'
  | 'n' => some '\n'
  | 'v' => some '\x0B'
  | 'f' => some '\x0C'
  | 'r' => some '\r'
  | 'e' => some '\x1B'
  | ' ' => some ' '
  | '"' => some '"'
  | '/' => some '/'
  | '\\' => some '\\'
  | 'N' => some '\u0085'
  | '_' => some '\u00A0'
  | 'L' => some '\u2028'
  | 'P' => some '\u2029'
  | _ => none

/-- How many digits follow a letter after a backslash. -/
def escapeWidth : Char → Nat
  | 'x' => 2
  | 'u' => 4
  | 'U' => 8
  | _ => 0

/-- The character that an escape stands for, and what follows it; the backslash is read. -/
def escape? : List Placed → Option (Char × List Placed)
  | [] => none
  | e :: cs =>
    let width := escapeWidth e.char
    if cs.length < width then none
    else
      (if width = 0 then escaped? e.char else ofCode? (cs.take width)).map (·, cs.drop width)

theorem length_of_escape {cs rest : List Placed} {c : Char} (h : escape? cs = some (c, rest)) :
    rest.length < cs.length := by
  cases cs with
  | nil => simp [escape?] at h
  | cons e cs =>
    simp only [escape?] at h
    split at h
    · simp at h
    · simp only [Option.map_eq_some_iff, Prod.mk.injEq] at h
      obtain ⟨_, _, _, rfl⟩ := h
      simp only [List.length_cons, List.length_drop]
      omega

/-- The rest of a text in double quotes after a gap. -/
def doubleQuoted (gap : Gap) (cs : List Placed) : Option Words :=
  match cs with
  | [] => none
  | c :: cs =>
    if c.isBlank || c.isBreak then doubleQuoted (gap.add c) cs
    else if atDocumentEdge (c :: cs) then none
    else if c.char = '"' then some ⟨gap.text, false, cs⟩
    else if c.char = '\\' then
      match cs with
      | d :: ds =>
        if d.isBreak then (doubleQuoted .hidden ds).map (·.after gap.text)
        else
          match h : escape? (d :: ds) with
          | some (e, rest) =>
            have : rest.length < ds.length + 1 := length_of_escape h
            (doubleQuoted .empty rest).map (·.after (gap.text ++ [e]))
          | none => none
      | [] => none
    else (doubleQuoted .empty cs).map (·.after (gap.text ++ [c.char]))
termination_by cs.length

end BehaviorTree.Yaml
