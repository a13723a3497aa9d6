import BehaviorTree.Json.Basic
import BehaviorTree.Text.Rest

namespace BehaviorTree.Json

/-!
# Reading JSON

A reader of one JSON value with blanks around it.  Each part returns what follows it, and the rest
is shorter than what was read, which is why the recursion ends.
-/

/-- The blanks between the parts of a JSON text. -/
def isBlank (c : Char) : Bool := c = ' ' || c = '\t' || c = '\n' || c = '\r'

/-- What follows blanks. -/
def skip (cs : List Char) : List Char := cs.dropWhile isBlank

theorem length_skip_le (cs : List Char) : (skip cs).length ≤ cs.length :=
  Text.length_dropWhile_le _ _

/-! ### Texts -/

/-- A character of a text, or the half of one that an escape stands for. -/
inductive Piece where
  | char (c : Char)
  | unit (n : Nat)

/-- The character that a letter after a backslash stands for. -/
def escaped? : Char → Option Char
  | '"' => some '"'
  | '\\' => some '\\'
  | '/' => some '/'
  | 'b' => some '\x08'
  | 'f' => some '\x0C'
  | 'n' => some '\n'
  | 'r' => some '\r'
  | 't' => some '\t'
  | _ => none

/-- The pieces of a text up to its closing quote, and what follows it. -/
def pieces : List Char → Option (List Piece × List Char)
  | [] => none
  | '"' :: r => some ([], r)
  | '\\' :: 'u' :: a :: b :: c :: d :: r =>
    (Text.ofDigits? 16 [a, b, c, d]).bind fun n =>
      (pieces r).map fun (ps, rest) => (.unit n :: ps, rest)
  | '\\' :: e :: r =>
    (escaped? e).bind fun c => (pieces r).map fun (ps, rest) => (.char c :: ps, rest)
  | c :: r =>
    if c.toNat < 0x20 || c = '\\' then none
    else (pieces r).map fun (ps, rest) => (.char c :: ps, rest)

/-- The characters that pieces make: two halves of one character stand together, the higher one
    first, and no half stands alone. -/
def joined? : List Piece → Option (List Char)
  | [] => some []
  | .char c :: ps => (joined? ps).map (c :: ·)
  | .unit n :: ps =>
    if n < 0xD800 ∨ 0xDFFF < n then (joined? ps).map (Char.ofNat n :: ·)
    else match ps with
      | .unit m :: ps =>
        if n < 0xDC00 ∧ 0xDC00 ≤ m ∧ m ≤ 0xDFFF then
          (joined? ps).map (Char.ofNat (0x10000 + (n - 0xD800) * 0x400 + (m - 0xDC00)) :: ·)
        else none
      | _ => none

/-- The text that pieces make. -/
def joinedText? (ps : List Piece) : Option String := (joined? ps).map String.ofList

/-! ### Numbers -/

/-- At least one digit, and what follows the digits. -/
def digits? (cs : List Char) : Option (List Char × List Char) :=
  let ds := cs.takeWhile Char.isDigit
  if ds.isEmpty then none else some (ds, cs.dropWhile Char.isDigit)

/-- A number as it is written, and what follows it.  No digit stands before another zero at the
    start, and digits stand on both sides of a point and in an exponent. -/
def number? (cs : List Char) : Option (List Char × List Char) := do
  let (sign, r) := match cs with
    | '-' :: r => (['-'], r)
    | r => ([], r)
  let (whole, r) ← digits? r
  if whole.head? = some '0' ∧ whole.length ≠ 1 then none
  let (fraction, r) ← match r with
    | '.' :: r => (digits? r).map fun (ds, r) => ('.' :: ds, r)
    | r => some ([], r)
  let (power, r) ← match r with
    | c :: r =>
      if c = 'e' ∨ c = 'E' then
        let (mark, r) := match r with
          | '+' :: r => (['+'], r)
          | '-' :: r => (['-'], r)
          | r => ([], r)
        (digits? r).map fun (ds, r) => (c :: mark ++ ds, r)
      else some ([], c :: r)
    | [] => some ([], [])
  return (sign ++ whole ++ fraction ++ power, r)

/-! ### Values -/

/-- What follows a word, if it comes first. -/
def word? (word : List Char) (cs : List Char) : Option (List Char) :=
  if word.isPrefixOf cs then some (cs.drop word.length) else none

/-- An object, of which a key is missing where its pieces make no text. -/
def ofMembers (members : List (Option String × Json)) : Json :=
  match members.mapM fun m => m.1.map (·, m.2) with
  | some ms => .object ms
  | none => .brokenObject

mutual

/-- One value, with the blanks before it. -/
def value (cs : List Char) : Text.Read Json cs.length :=
  match h : skip cs with
  | [] => none
  | '"' :: r =>
    (pieces r).bind fun (ps, rest) =>
      Text.accept ((joinedText? ps).elim .brokenText .text) rest _
  | '[' :: r =>
    have hr : r.length < cs.length := by
      have := length_skip_le cs
      simp only [h, List.length_cons] at this; omega
    match skip r with
    | ']' :: rest => Text.accept (.list []) rest _
    | _ => (items r).bind fun (js, rest) => Text.accept (.list js) rest.1 _
  | '{' :: r =>
    have hr : r.length < cs.length := by
      have := length_skip_le cs
      simp only [h, List.length_cons] at this; omega
    match skip r with
    | '}' :: rest => Text.accept (.object []) rest _
    | _ => (members r).bind fun (ms, rest) => Text.accept (ofMembers ms) rest.1 _
  | c :: r =>
    match word? ['n', 'u', 'l', 'l'] (c :: r), word? ['t', 'r', 'u', 'e'] (c :: r),
        word? ['f', 'a', 'l', 's', 'e'] (c :: r) with
    | some rest, _, _ => Text.accept .null rest _
    | _, some rest, _ => Text.accept (.bool true) rest _
    | _, _, some rest => Text.accept (.bool false) rest _
    | _, _, _ => (number? (c :: r)).bind fun (lexeme, rest) => Text.accept (.number lexeme) rest _
termination_by 2 * cs.length

/-- The items of a list that is not empty, up to its closing bracket. -/
def items (cs : List Char) : Text.Read (List Json) cs.length :=
  (value cs).bind fun (j, rest) =>
    match skip rest.1 with
    | ',' :: r =>
      if _ : r.length < cs.length then
        (items r).bind fun (js, rest) => Text.accept (j :: js) rest.1 _
      else none
    | ']' :: r => Text.accept [j] r _
    | _ => none
termination_by 2 * cs.length + 1

/-- The members of an object that is not empty, up to its closing brace. -/
def members (cs : List Char) : Text.Read (List (Option String × Json)) cs.length :=
  match skip cs with
  | '"' :: r =>
    (pieces r).bind fun (ps, rest) =>
      match skip rest with
      | ':' :: r =>
        if _ : r.length < cs.length then
          (value r).bind fun (j, rest) =>
            match skip rest.1 with
            | ',' :: r =>
              if _ : r.length < cs.length then
                (members r).bind fun (ms, rest) =>
                  Text.accept ((joinedText? ps, j) :: ms) rest.1 _
              else none
            | '}' :: r => Text.accept [(joinedText? ps, j)] r _
            | _ => none
        else none
      | _ => none
  | _ => none
termination_by 2 * cs.length + 1

end

/-- The value that a whole text writes. -/
def read? (s : String) : Option Json :=
  (value s.toList).bind fun (j, rest) => if (skip rest.1).isEmpty then some j else none

end BehaviorTree.Json
