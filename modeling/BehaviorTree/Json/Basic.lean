import BehaviorTree.Decimal.Notation
import BehaviorTree.Text.Quoted

namespace BehaviorTree

/-!
# JSON texts

A JSON value as a tree, and its two written forms: compact, and with one item on a line and two
blanks of indentation for each level.  A number is kept as it is written.
-/

/-- A JSON value. -/
inductive Json where
  | null
  | bool (b : Bool)
  /-- A number as it is written. -/
  | number (lexeme : List Char)
  | text (s : String)
  /-- A text in which an escape stands for half of a character. -/
  | brokenText
  | list (items : List Json)
  | object (members : List (String × Json))
  /-- An object with such a text for a key. -/
  | brokenObject

namespace Json

/-- A natural number. -/
def ofNat (n : Nat) : Json := .number (Nat.toDigits 10 n)

/-- A double, or null for what is not a finite number. -/
def ofFloat (x : Float) : Json :=
  if Decimal.isFinite x then .number (Decimal.render .scientific x).toList else .null

/-- A value or null. -/
def ofOption {α : Type} (f : α → Json) : Option α → Json
  | some a => f a
  | none => .null

/-- A character of a written text: quotes, backslashes and the controls below U+0020 are
    escaped. -/
def textChar (c : Char) : List Char :=
  let n := c.toNat
  if c = '"' then ['\\', '"']
  else if c = '\\' then ['\\', '\\']
  else if n = 0x08 then ['\\', 'b']
  else if n = 0x09 then ['\\', 't']
  else if n = 0x0A then ['\\', 'n']
  else if n = 0x0C then ['\\', 'f']
  else if n = 0x0D then ['\\', 'r']
  else if n < 0x20 then ['\\', 'u', '0', '0', Text.hexDigit (n / 16), Text.hexDigit (n % 16)]
  else [c]

/-- A written text. -/
def quoted (s : String) : String :=
  String.ofList ('"' :: s.toList.flatMap textChar ++ ['"'])

mutual

/-- The compact form. -/
def compact : Json → String
  | .null => "null"
  | .bool b => if b then "true" else "false"
  | .number lexeme => String.ofList lexeme
  | .text s => quoted s
  | .brokenText => "\"\""
  | .brokenObject => "\x7b\x7d"
  | .list items => "[" ++ ",".intercalate (compactItems items) ++ "]"
  | .object members => "\x7b" ++ ",".intercalate (compactMembers members) ++ "\x7d"

/-- The compact forms of the items of a list. -/
def compactItems : List Json → List String
  | [] => []
  | j :: js => j.compact :: compactItems js

/-- The compact forms of the members of an object. -/
def compactMembers : List (String × Json) → List String
  | [] => []
  | (k, j) :: ms => (quoted k ++ ":" ++ j.compact) :: compactMembers ms

end

/-- The start of a line at some level of the indented form. -/
def margin (level : Nat) : String := String.ofList ('\n' :: List.replicate (2 * level) ' ')

/-- Written items on lines of their own between brackets; no items leave nothing between. -/
def indentedBlock (level : Nat) (opening closing : String) (items : List String) : String :=
  if items.isEmpty then opening ++ closing
  else
    opening ++ ",".intercalate (items.map (margin (level + 1) ++ ·)) ++ margin level ++ closing

mutual

/-- The indented form at some level. -/
def indented (level : Nat) : Json → String
  | .list items => indentedBlock level "[" "]" (indentedItems (level + 1) items)
  | .object members =>
    indentedBlock level "\x7b" "\x7d" (indentedMembers (level + 1) members)
  | j => j.compact

/-- The indented forms of the items of a list. -/
def indentedItems (level : Nat) : List Json → List String
  | [] => []
  | j :: js => j.indented level :: indentedItems level js

/-- The indented forms of the members of an object. -/
def indentedMembers (level : Nat) : List (String × Json) → List String
  | [] => []
  | (k, j) :: ms => (quoted k ++ ": " ++ j.indented level) :: indentedMembers level ms

end

end Json

end BehaviorTree
