import BehaviorTree.Decimal.Notation
import BehaviorTree.Decimal.Reader
import BehaviorTree.Text.Blank

namespace BehaviorTree

/-!
# Property values

A property of a node is a number or a text.  A node asks for the shape that it needs and the
conversions are lenient: a text that writes a number, an integer or a truth value serves as one,
blanks around it ignored.
-/

/-- The value of a property. -/
inductive PropertyValue where
  | number (x : Float)
  | text (s : String)
deriving DecidableEq, Repr

namespace PropertyValue

/-- The text of a text value. -/
def asText? : PropertyValue → Option String
  | .text s => some s
  | .number _ => none

/-- The finite double that a value is or writes. -/
def asReal? (v : PropertyValue) : Option Float :=
  let x? := match v with
    | .number x => some x
    | .text s => Decimal.readFloat? (Text.trim s.toList)
  x?.filter Decimal.isFinite

/-- The integer that a value is or writes.  A number has to be integral, and is moved into the
    range of 64-bit words; a text has to write a word. -/
def asInteger? : PropertyValue → Option Int64
  | .number x => (Decimal.toInt? x).map Decimal.clampInt64
  | .text s => Decimal.readInt64? (Text.trim s.toList)

/-- The truth value that a text writes, in any letter case. -/
def asFlag? (v : PropertyValue) : Option Bool :=
  v.asText?.bind fun s =>
    match String.ofList ((Text.trim s.toList).map Char.toLower) with
    | "true" => some true
    | "false" => some false
    | _ => none

/-- The text of a value: texts as they are, numbers in plain layout. -/
def render : PropertyValue → String
  | .number x => Decimal.render .plain x
  | .text s => s

/-- An integer as a property value: the double nearest to it. -/
def ofInt (n : Int) : PropertyValue := .number (Decimal.ofInt n)

/-- A truth value as a property value. -/
def ofBool (b : Bool) : PropertyValue := .text (if b then "true" else "false")

/-- Numbers are compared as numbers: a NaN differs from itself, and the two zeros are equal. -/
def same : PropertyValue → PropertyValue → Bool
  | .number x, .number y => x == y
  | .text s, .text t => s == t
  | _, _ => false

end PropertyValue

end BehaviorTree
