import BehaviorTree.Text.Hexadecimal
import BehaviorTree.Yaml.Placed

namespace BehaviorTree.Yaml

/-!
# Names, tags and directives

What can stand before a value: an anchor, by whose name the value can be repeated, and a tag, which
says what the value is.  A tag is a handle and a suffix, and the directives before a document say
what handles stand for.
-/

/-! ### Anchors -/

/-- Whether the name of an anchor can end here. -/
def endsAnchor (cs : List Placed) : Bool :=
  atGap cs || cs.head?.any fun c =>
    c.char = '?' || c.char = ':' || c.char = ',' || c.char = ']' || c.char = '}' ||
      c.char = '%' || c.char = '@' || c.char.toNat = 0x60

/-- The name of an anchor, and what follows it. -/
def anchor? (cs : List Placed) : Option (String × List Placed) :=
  let name := cs.takeWhile Placed.isNameChar
  let rest := cs.dropWhile Placed.isNameChar
  if !name.isEmpty && endsAnchor rest then some (String.ofList (chars name), rest) else none

/-! ### Tags -/

/-- A tag as it is written. -/
structure Tag where
  handle : String
  suffix : String

/-- Whether a character can stand in a tag; between angle brackets some more can. -/
def isTagChar (isVerbatim : Bool) (c : Placed) : Bool :=
  c.isNameChar || [';', '/', '?', ':', '@', '&', '=', '+', '$', '.', '!', '~', '*', '\'', '(',
    ')'].contains c.char || isVerbatim && [',', '[', ']'].contains c.char

/-- How many octets follow the first one of a character. -/
def furtherOctets? (octet : Nat) : Option Nat :=
  if octet < 0x80 then some 0
  else if octet < 0xC0 then none
  else if octet < 0xE0 then some 1
  else if octet < 0xF0 then some 2
  else if octet < 0xF8 then some 3
  else none

/-- The characters of a tag, in which a percent sign stands before an octet in hexadecimal, and what
    follows them.  As many octets as `missing` says have to come first. -/
def tagChars (isVerbatim : Bool) (missing : Nat) : List Placed → Option (List Char × List Placed)
  | [] => if missing = 0 then some ([], []) else none
  | c :: cs =>
    if c.char = '%' then
      match cs with
      | a :: b :: r => do
        let octet ← Text.ofDigits? 16 [a.char, b.char]
        let missing ← match missing with
          | 0 => furtherOctets? octet
          | n + 1 => if 0x80 ≤ octet ∧ octet < 0xC0 then some n else none
        let (text, rest) ← tagChars isVerbatim missing r
        return (Char.ofNat octet :: text, rest)
      | _ => none
    else if missing ≠ 0 then none
    else if isTagChar isVerbatim c then
      (tagChars isVerbatim 0 cs).map fun (text, rest) => (c.char :: text, rest)
    else some ([], c :: cs)

/-- Some characters of a tag, and what follows them. -/
def tagText? (isVerbatim : Bool) (cs : List Placed) : Option (String × List Placed) :=
  (tagChars isVerbatim 0 cs).bind fun (text, rest) =>
    if text.isEmpty then none else some (String.ofList text, rest)

/-- The tag after an exclamation mark, and what follows it.

* `!<suffix>` is a tag without a handle.
* `!name!suffix` has the handle `!name!`, and `!!suffix` the handle `!!`.
* `!suffix` has the handle `!`, and `!` alone is a tag without a handle. -/
def tagAfterMark? (cs : List Placed) : Option (Tag × List Placed) :=
  if beginsWith '<' cs then
    (tagText? true (cs.drop 1)).bind fun (suffix, rest) =>
      if beginsWith '>' rest then some (⟨"", suffix⟩, rest.drop 1) else none
  else
    let name := chars (cs.takeWhile Placed.isNameChar)
    let r := cs.dropWhile Placed.isNameChar
    if beginsWith '!' r then
      (tagText? false (r.drop 1)).map fun (suffix, rest) =>
        (⟨String.ofList ('!' :: name ++ ['!']), suffix⟩, rest)
    else
      (tagChars false 0 r).map fun (text, rest) =>
        (if name.isEmpty && text.isEmpty then ⟨"", "!"⟩ else ⟨"!", String.ofList (name ++ text)⟩,
          rest)

/-- The tag after an exclamation mark, and what follows it: a gap, or a comma between brackets. -/
def tag? (inFlow : Bool) (cs : List Placed) : Option (Tag × List Placed) :=
  (tagAfterMark? cs).filter fun (_, rest) => atGap rest || inFlow && beginsWith ',' rest

/-! ### Directives -/

/-- What a directive says. -/
inductive Directive where
  /-- The version of YAML that a document is written in. -/
  | version (major minor : Nat)
  /-- What a handle stands for. -/
  | handle (name expansion : String)

/-- A number of at most nine digits, and what follows it. -/
def versionNumber? (cs : List Placed) : Option (Nat × List Placed) :=
  let digits := cs.takeWhile (·.char.isDigit)
  if digits.length ≤ 9 then
    (Text.ofDigits? 10 (chars digits)).map (·, cs.dropWhile (·.char.isDigit))
  else none

/-- A version, and what follows it. -/
def version? (cs : List Placed) : Option (Directive × List Placed) := do
  let (major, r) ← versionNumber? cs
  if beginsWith '.' r then
    let (minor, rest) ← versionNumber? (r.drop 1)
    return (.version major minor, rest)
  else none

/-- A handle and what it stands for, and what follows that. -/
def handle? (cs : List Placed) : Option (Directive × List Placed) :=
  if beginsWith '!' cs then
    let name := chars ((cs.drop 1).takeWhile Placed.isNameChar)
    let r := (cs.drop 1).dropWhile Placed.isNameChar
    let (closing, r) := if beginsWith '!' r then (['!'], r.drop 1) else ([], r)
    if closing.isEmpty && !name.isEmpty || !r.head?.any Placed.isBlank then none
    else
      (tagText? true (skipBlanks r)).bind fun (expansion, rest) =>
        if atGap rest then
          some (.handle (String.ofList ('!' :: name ++ closing)) expansion, rest)
        else none
  else none

/-- The directive after a percent sign, and the line after it. -/
def directive? (cs : List Placed) : Option (Directive × List Placed) :=
  let name := String.ofList (chars (cs.takeWhile Placed.isNameChar))
  let r := cs.dropWhile Placed.isNameChar
  let directive :=
    if !atGap r then none
    else if name = "YAML" then version? (skipBlanks r)
    else if name = "TAG" then handle? (skipBlanks r)
    else none
  directive.bind fun (d, rest) => (nextLine? rest).map (d, ·)

end BehaviorTree.Yaml
