import BehaviorTree.Decimal.Binary

namespace BehaviorTree.Decimal

/-!
# Reading numbers

Integers and doubles from text.

* An integer is an optional sign and at least one ASCII digit.
* A double is an optional sign and either one of the words `inf`, `infinity` and `nan` in any
  letter case, or digits with at most one point among them and an optional exponent.  It is the
  double nearest to the decimal, so a decimal too large for doubles reads as an infinity.
-/

/-- The value of an ASCII digit. -/
def digitValue (c : Char) : Nat := c.toNat - 48

/-- The number that a list of ASCII digits writes. -/
def ofDigits (cs : List Char) : Nat := cs.foldl (fun n c => 10 * n + digitValue c) 0

/-- A sign cut off: whether it was a minus, and what follows it. -/
def cutSign : List Char → Bool × List Char
  | '-' :: cs => (true, cs)
  | '+' :: cs => (false, cs)
  | cs => (false, cs)

/-- An optional sign and at least one digit. -/
def readInt? (cs : List Char) : Option Int :=
  let (negative, digits) := cutSign cs
  if !digits.isEmpty && digits.all Char.isDigit then
    some (if negative then -(ofDigits digits) else ofDigits digits)
  else none

/-- An integer of 64 bits in text. -/
def readInt64? (cs : List Char) : Option Int64 :=
  (readInt? cs).bind fun n =>
    if Int64.minValue.toInt ≤ n ∧ n ≤ Int64.maxValue.toInt then some (Int64.ofInt n) else none

/-- A natural number below `bound` in text: digits after an optional plus. -/
def readNat? (bound : Nat) (cs : List Char) : Option Nat :=
  let digits := if cs.head? = some '+' then cs.tail else cs
  if !digits.isEmpty && digits.all Char.isDigit && ofDigits digits < bound then
    some (ofDigits digits)
  else none

/-- A power of ten beyond the reach of doubles: `10 ^ 400` is above them all, and anything below
    `10 ^ (-400)` is nearer to zero than to any other double. -/
def outOfReach : Int := 400

/-- The double nearest to `digits * 10 ^ exponent`.  The first two cases only spare the powers of
    ten of exponents that no double comes near to. -/
def ofScientific (negative : Bool) (digits : Nat) (exponent : Int) : Float :=
  if digits = 0 ∨ exponent + digits.log2 < -outOfReach then nearest negative 0 1
  else if outOfReach < exponent then infinity negative
  else nearest negative (digits * Nat.pow 10 exponent.toNat) (Nat.pow 10 (-exponent).toNat)

/-- The exponent after a decimal: nothing, or `e` with an integer. -/
def readExponent? : List Char → Option Int
  | [] => some 0
  | c :: cs => if c = 'e' ∨ c = 'E' then readInt? cs else none

/-- Digits with at most one point among them and an optional exponent, without sign: the
    digits of the number and the power of ten they are taken times. -/
def readUnsigned? (cs : List Char) : Option (Nat × Int) :=
  let whole := cs.takeWhile Char.isDigit
  let (fraction, rest) :=
    match cs.dropWhile Char.isDigit with
    | '.' :: r => (r.takeWhile Char.isDigit, r.dropWhile Char.isDigit)
    | r => ([], r)
  if whole.isEmpty && fraction.isEmpty then none
  else (readExponent? rest).map fun e => (ofDigits (whole ++ fraction), e - fraction.length)

/-- A double in text. -/
def readFloat? (cs : List Char) : Option Float :=
  let (negative, body) := cutSign cs
  let word := String.ofList (body.map Char.toLower)
  if word = "inf" ∨ word = "infinity" then some (infinity negative)
  else if word = "nan" then some (notANumber negative)
  else (readUnsigned? body).map fun (digits, e) => ofScientific negative digits e

end BehaviorTree.Decimal
