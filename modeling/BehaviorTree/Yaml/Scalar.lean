import BehaviorTree.Decimal.Notation
import BehaviorTree.Decimal.Reader
import BehaviorTree.Text.Hexadecimal

namespace BehaviorTree.Yaml

/-!
# Scalars of YAML

A scalar is a text, and how it is written says what it means.  Its tag decides, if it has one of the
standard tags.  Without a tag all but plain scalars mean their text.  What a plain scalar means
depends on how it looks, and the first of these that fits decides: null, a truth value, an integer,
a double, a text.

* An integer is in base ten without leading zeros, or in base sixteen, eight or two after `0x`, `0o`
  or `0b`.  It fits into 128 bits.
* A double is a finite decimal, or `.inf` with a sign, or `.nan`.
-/

/-- How a scalar is written. -/
inductive Style where
  | plain
  | quoted
  /-- As a block of lines. -/
  | literal
  /-- As a block of lines that are folded. -/
  | folded
deriving DecidableEq, Repr

/-- A scalar as it is written. -/
structure Scalar where
  text : String
  style : Style := .plain
  tag : Option String := none
deriving DecidableEq, Repr

/-- What a scalar means. -/
inductive Atom where
  | null
  | flag (b : Bool)
  | integer (n : Int)
  | real (x : Float)
  | text (s : String)

/-! ### Standard tags -/

/-- What the standard tags begin with. -/
def standardTags : String := "tag:yaml.org,2002:"

/-- The tag of truth values. -/
def flagTag : String := standardTags ++ "bool"

/-- The tag of integers. -/
def integerTag : String := standardTags ++ "int"

/-- The tag of doubles. -/
def realTag : String := standardTags ++ "float"

/-- The tag of null. -/
def nullTag : String := standardTags ++ "null"

/-! ### Readings of a text -/

/-- Whether a text writes null. -/
def isNull (text : String) : Bool :=
  text = "~" || text = "null" || text = "Null" || text = "NULL"

/-- The truth value that a text writes. -/
def flag? : String → Option Bool
  | "true" | "True" | "TRUE" => some true
  | "false" | "False" | "FALSE" => some false
  | _ => none

/-- Whether a decimal has a zero before its other digits, which makes it a text. -/
def isPadded (cs : List Char) : Bool :=
  match (Decimal.cutSign cs).2 with
  | '0' :: d :: ds => (d :: ds).all Char.isDigit
  | _ => false

/-- The number that digits write, in the base that they name. -/
def natural? : List Char → Option Nat
  | '0' :: 'x' :: ds => Text.ofDigits? 16 ds
  | '0' :: 'o' :: ds => Text.ofDigits? 8 ds
  | '0' :: 'b' :: ds => Text.ofDigits? 2 ds
  | ds => if isPadded ds then none else Text.ofDigits? 10 ds

/-- The integers of 128 bits, with sign or without. -/
def isWide : Int → Bool
  | .ofNat n => n < Nat.pow 2 128
  | .negSucc n => n < Nat.pow 2 127

/-- The integer that a text writes. -/
def integer? (cs : List Char) : Option Int :=
  let (negative, digits) := Decimal.cutSign cs
  ((natural? digits).map fun n => if negative then -n else (n : Int)).filter isWide

/-- The double that a text writes. -/
def real? (cs : List Char) : Option Float :=
  match String.ofList cs with
  | ".inf" | ".Inf" | ".INF" | "+.inf" | "+.Inf" | "+.INF" => some (Decimal.infinity false)
  | "-.inf" | "-.Inf" | "-.INF" => some (Decimal.infinity true)
  | ".nan" | ".NaN" | ".NAN" => some (Decimal.notANumber false)
  | _ => (Decimal.readFloat? cs).filter Decimal.isFinite

/-- What a plain text means. -/
def plainAtom (text : String) : Atom :=
  if text.isEmpty || isNull text then .null
  else
    match flag? text, integer? text.toList, real? text.toList with
    | some b, _, _ => .flag b
    | _, some n, _ => .integer n
    | _, _, some x => if isPadded text.toList then .text text else .real x
    | _, _, _ => .text text

namespace Scalar

/-- The scalar that is not there. -/
def nothing : Scalar := { text := "" }

/-- Whether a scalar is nothing but a place where one could stand. -/
def isNothing (s : Scalar) : Bool := s.text.isEmpty && s.style = .plain

/-- What a scalar means.  Nothing is known of tags that are local to a file. -/
def atom? (s : Scalar) : Option Atom :=
  match s.tag with
  | none => some (if s.style = .plain then plainAtom s.text else .text s.text)
  | some tag =>
    if tag.startsWith "!" then none
    else if tag = flagTag then (flag? s.text).map .flag
    else if tag = integerTag then (integer? s.text.toList).map .integer
    else if tag = realTag then (real? s.text.toList).map .real
    else if tag = nullTag then if isNull s.text then some .null else none
    else some (.text s.text)

/-- Whether a scalar can be read where a value with a tag is expected: if it is plain, or a block
    with this tag. -/
def suits (s : Scalar) (tag : String) : Bool :=
  s.style = .plain || s.style = .literal && s.tag = some tag

/-- The truth value that a scalar writes, where one is expected. -/
def flag? (s : Scalar) : Option Bool := if s.suits flagTag then Yaml.flag? s.text else none

/-- The natural number below `bound` that a scalar writes, where one is expected.  It has no minus,
    not even before zero. -/
def natural? (bound : Nat) (s : Scalar) : Option Nat :=
  if s.suits integerTag && !s.text.startsWith "-" then
    ((integer? s.text.toList).map Int.toNat).filter (· < bound)
  else none

theorem atom?_quoted (text : String) :
    atom? { text, style := .quoted } = some (.text text) := by
  simp [atom?]

end Scalar

end BehaviorTree.Yaml
