import BehaviorTree.Yaml.Block
import BehaviorTree.Yaml.Property
import BehaviorTree.Yaml.Scalar
import BehaviorTree.Yaml.Words

namespace BehaviorTree.Yaml

/-!
# Tokens of a YAML file

A YAML file is read as a list of tokens, in which indentation is made explicit: a token stands where
a block begins and where it ends.

* A key is known as one only by the colon after it, so the scanner remembers where a key may have
  begun, and puts a token there when the colon comes.  A key without a mark of its own ends on its
  line and within 1024 bytes.
* A key that begins at the margin of its block has to be one.
* Between brackets and braces indentation means nothing.
-/

/-- A token. -/
inductive Token where
  | directive (d : Directive)
  | documentStart
  | documentEnd
  | blockList
  | blockMap
  | blockEnd
  | flowListStart
  | flowListEnd
  | flowMapStart
  | flowMapEnd
  | item
  | comma
  | key
  | value
  | reference (name : String)
  | anchor (name : String)
  | tag (t : Tag)
  | scalar (s : Scalar)

/-! ### The scanner -/

/-- A place where a key may have begun. -/
structure KeyStart where
  place : Placed
  /-- The number of tokens before it. -/
  index : Nat
  /-- Whether it has to be a key. -/
  isRequired : Bool

/-- What is known at some place of a file. -/
structure Scanner where
  /-- The tokens, the last one first. -/
  tokens : List Token := []
  /-- The column after that of the current block; zero outside of blocks. -/
  margin : Nat := 0
  /-- The margins of the blocks around, the innermost first. -/
  outerMargins : List Nat := []
  /-- Where a key may have begun within the current brackets. -/
  keyStart : Option KeyStart := none
  /-- The same for the brackets around, the innermost first. -/
  outerKeyStarts : List (Option KeyStart) := []
  /-- Whether a key can begin. -/
  allowsKey : Bool := true

/-- The greatest length of a key, in bytes. -/
def longestKey : Nat := 1024

namespace Scanner

/-- Whether a place is between brackets. -/
def inFlow (s : Scanner) : Bool := !s.outerKeyStarts.isEmpty

/-- Adds a token. -/
def push (t : Token) (s : Scanner) : Scanner := { s with tokens := t :: s.tokens }

/-- Adds a token after the first `index` ones. -/
def insert (index : Nat) (t : Token) (s : Scanner) : Scanner :=
  let later := s.tokens.length - index
  { s with tokens := s.tokens.take later ++ t :: s.tokens.drop later }

/-- Says whether a key can begin. -/
def allowKey (allowsKey : Bool) (s : Scanner) : Scanner := { s with allowsKey }

/-- The margins that are left when the blocks beyond `margin` end, and how many end. -/
def leave (margin current : Nat) : List Nat → Nat × Nat × List Nat
  | [] => if margin < current then (1, 0, []) else (0, current, [])
  | outer :: outers =>
    if margin < current then
      let (ended, left) := leave margin outer outers
      (ended + 1, left)
    else (0, current, outer :: outers)

/-- Ends the blocks beyond a margin. -/
def closeTo (margin : Nat) (s : Scanner) : Scanner :=
  if s.inFlow then s
  else
    let (ended, margin, outerMargins) := leave margin s.margin s.outerMargins
    { s with
      tokens := List.replicate ended .blockEnd ++ s.tokens
      margin
      outerMargins }

/-- Begins a block at a column, if it is not the current one, with a token after the first `index`
    ones. -/
def openAt (column index : Nat) (t : Token) (s : Scanner) : Scanner :=
  if s.inFlow || column < s.margin then s
  else
    let opened := s.insert index t
    { opened with margin := column + 1, outerMargins := s.margin :: s.outerMargins }

/-- Forgets where a key may have begun. -/
def dropKey (s : Scanner) : Option Scanner :=
  if s.keyStart.any KeyStart.isRequired then none else some { s with keyStart := none }

/-- Remembers that a key may begin here. -/
def markKey (c : Placed) (s : Scanner) : Option Scanner :=
  if s.allowsKey then
    s.dropKey.map fun s =>
      { s with keyStart := some ⟨c, s.tokens.length, !s.inFlow && s.margin = c.column + 1⟩ }
  else some s

/-- Whether no colon can make a key of what began at `k` any more. -/
def isOver (c : Placed) (k : KeyStart) : Bool :=
  k.place.line < c.line || k.place.offset + longestKey < c.offset

/-- Forgets the keys that no colon can make any more. -/
def dropOver (c : Placed) (s : Scanner) : Option Scanner :=
  let keyStarts := s.keyStart :: s.outerKeyStarts
  if keyStarts.any fun k => k.any fun k => k.isRequired && isOver c k then none
  else
    let keep := Option.filter fun k => !isOver c k
    some { s with keyStart := keep s.keyStart, outerKeyStarts := s.outerKeyStarts.map keep }

/-- Goes in between brackets. -/
def enterFlow (t : Token) (s : Scanner) : Scanner :=
  { s with
    tokens := t :: s.tokens
    keyStart := none
    outerKeyStarts := s.keyStart :: s.outerKeyStarts
    allowsKey := true }

/-- Comes out from between brackets. -/
def leaveFlow (t : Token) (s : Scanner) : Option Scanner :=
  s.dropKey.map fun s =>
    { (s.push t).allowKey false with
      keyStart := s.outerKeyStarts.head?.join
      outerKeyStarts := s.outerKeyStarts.tail }

/-- A token at the margin of a file, which ends all blocks. -/
def atMargin (t : Token) (s : Scanner) : Option Scanner :=
  (s.closeTo 0).dropKey.map fun s => (s.push t).allowKey false

/-- A mark before an item or a key, at a place. -/
def beginPart (block t : Token) (c : Placed) (allowsKey : Bool) (s : Scanner) : Option Scanner :=
  if s.inFlow || s.allowsKey then
    (s.openAt c.column s.tokens.length block).dropKey.map fun s => (s.push t).allowKey allowsKey
  else none

/-- The colon after a key, at a place. -/
def beginValue (c : Placed) (s : Scanner) : Option Scanner :=
  match s.keyStart with
  | some k =>
    let s := (s.insert k.index .key).openAt k.place.column k.index .blockMap
    some { (s.push .value).allowKey false with keyStart := none }
  | none =>
    if s.inFlow then some ((s.push .value).allowKey false)
    else if s.allowsKey then
      some (((s.openAt c.column s.tokens.length .blockMap).push .value).allowKey true)
    else none

/-- A scalar. -/
def addScalar (style : Style) (text : List Char) (s : Scanner) : Scanner :=
  s.push (.scalar { text := String.ofList text, style })

end Scanner

/-! ### From place to place -/

/-- Goes on to the next token: over blanks, line breaks and comments.  Says whether a key can begin
    there. -/
def seek (inFlow allowsKey inComment : Bool) : List Placed → Bool × List Placed
  | [] => (allowsKey, [])
  | c :: cs =>
    if c.isBreak then seek inFlow (allowsKey || !inFlow) false cs
    else if inComment then seek inFlow allowsKey true cs
    else if c.char = '#' then seek inFlow allowsKey true cs
    else if c.char = ' ' || c.isOrderMark || c.char = '\t' && (inFlow || !allowsKey) then
      seek inFlow allowsKey false cs
    else (allowsKey, c :: cs)

/-- Reads the token that begins with a character; `cs` is what follows the character. -/
def next (s : Scanner) (c : Placed) (cs : List Placed) : Option (Scanner × List Placed) :=
  let isFlow := s.inFlow
  if c.column = 0 && c.char = '%' then do
    let (d, rest) ← directive? cs
    return (← s.atMargin (.directive d), rest)
  else if isMarker '-' (c :: cs) then (s.atMargin .documentStart).map (·, cs.drop 2)
  else if isMarker '.' (c :: cs) then (s.atMargin .documentEnd).map (·, cs.drop 2)
  else if c.char = '[' then (s.markKey c).map fun s => (s.enterFlow .flowListStart, cs)
  else if c.char = '{' then (s.markKey c).map fun s => (s.enterFlow .flowMapStart, cs)
  else if c.char = ']' then (s.leaveFlow .flowListEnd).map (·, cs)
  else if c.char = '}' then (s.leaveFlow .flowMapEnd).map (·, cs)
  else if c.char = ',' then s.dropKey.map fun s => ((s.push .comma).allowKey true, cs)
  else if c.char = '-' && atGap cs then (s.beginPart .blockList .item c true).map (·, cs)
  else if c.char = '?' && (isFlow || atGap cs) then
    (s.beginPart .blockMap .key c !isFlow).map (·, cs)
  else if c.char = ':' && (isFlow || atGap cs) then (s.beginValue c).map (·, cs)
  else if c.char = '*' then do
    let (name, rest) ← anchor? cs
    return (((← s.markKey c).push (.reference name)).allowKey false, rest)
  else if c.char = '&' then do
    let (name, rest) ← anchor? cs
    return (((← s.markKey c).push (.anchor name)).allowKey false, rest)
  else if c.char = '!' then do
    let (t, rest) ← tag? isFlow cs
    return (((← s.markKey c).push (.tag t)).allowKey false, rest)
  else if (c.char = '|' || c.char = '>') && !isFlow then do
    let isFolded := c.char = '>'
    let (text, rest) ← block isFolded s.margin cs
    let s ← s.dropKey
    return ((s.addScalar (if isFolded then .folded else .literal) text).allowKey true, rest)
  else if c.char = '\'' || c.char = '"' then do
    let w ← if c.char = '\'' then singleQuoted .empty cs else doubleQuoted .empty cs
    return (((← s.markKey c).addScalar .quoted w.text).allowKey false, w.rest)
  else if beginsPlain isFlow (c :: cs) then do
    let w ← plain isFlow s.margin .empty (c :: cs)
    return (((← s.markKey c).addScalar .plain w.text).allowKey w.isBroken, w.rest)
  else none

/-- Reads the tokens of a file from some place on. -/
def scanFrom (s : Scanner) (cs : List Placed) : Option (List Token) :=
  let (allowsKey, found) := seek s.inFlow s.allowsKey false cs
  match found with
  | [] => (s.closeTo 0).dropKey.map (·.tokens.reverse)
  | c :: r => do
    let s ← (s.allowKey allowsKey).dropOver c
    let (s, rest) ← next (s.closeTo (c.column + 1)) c r
    if _ : rest.length < cs.length then scanFrom s rest else none
termination_by cs.length

/-- The tokens of a file. -/
def tokens? (source : String) : Option (List Token) :=
  if source.toList.all isPrintable then scanFrom {} (place source) else none

end BehaviorTree.Yaml
