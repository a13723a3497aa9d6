import BehaviorTree.Decimal.Shortest

namespace BehaviorTree.Decimal

/-!
# Written numbers

How the digits of a double are laid out.  Two layouts are in use: `plain` never writes an
exponent and no point after an integer; `scientific` always writes a point or an exponent, the
exponent for very small and very large values.
-/

/-- A layout of decimal numbers. -/
structure Layout where
  /-- Which way a tie between two shortest forms goes. -/
  tie : Tie
  /-- Whether a number whose first digit stands for `10 ^ e` is written without exponent. -/
  positional : Int → Bool
  /-- What follows the digits of an integer. -/
  wholeEnd : String

/-- Never an exponent, no point after an integer. -/
def Layout.plain : Layout where
  tie := .up
  positional := fun _ => true
  wholeEnd := ""

/-- At least one decimal, and an exponent below `10 ^ (-5)` and from `10 ^ 16` on. -/
def Layout.scientific : Layout where
  tie := .even
  positional := fun e => -5 ≤ e && e < 16
  wholeEnd := ".0"

/-- The digits of a natural number. -/
def digitsOf (n : Nat) : List Char := Nat.toDigits 10 n

/-- Zeros. -/
def zeros (n : Nat) : List Char := List.replicate n '0'

/-- The digits of a decimal with the point where it belongs. -/
def positionalForm (layout : Layout) (d : Scientific) : List Char :=
  let digits := digitsOf d.digits
  if 0 ≤ d.exponent then
    digits ++ zeros d.exponent.toNat ++ layout.wholeEnd.toList
  else
    let places := (-d.exponent).toNat
    if places < digits.length then
      digits.take (digits.length - places) ++ '.' :: digits.drop (digits.length - places)
    else
      '0' :: '.' :: zeros (places - digits.length) ++ digits

/-- One digit before the point and an exponent with its sign. -/
def exponentForm (d : Scientific) : List Char :=
  let digits := digitsOf d.digits
  let e := d.exponent + (digits.length - 1 : Nat)
  let power := 'e' :: (if e < 0 then '-' else '+') :: digitsOf e.natAbs
  match digits with
  | first :: second :: rest => first :: '.' :: second :: rest ++ power
  | _ => digits ++ power

/-- A decimal in a layout. -/
def Layout.write (layout : Layout) (d : Scientific) : List Char :=
  if layout.positional (d.exponent + ((digitsOf d.digits).length - 1 : Nat)) then
    positionalForm layout d
  else exponentForm d

/-- The text of a finite value, without its sign. -/
def Layout.magnitude (layout : Layout) (significand : Nat) (exponent : Int) : List Char :=
  if significand = 0 then layout.write { digits := 0, exponent := 0 }
  else layout.write (shortest layout.tie significand exponent)

/-- The text of a double: `NaN`, `inf` and `-inf`, or the fewest digits that read back. -/
def render (layout : Layout) (x : Float) : String :=
  match Binary.ofFloat x with
  | .nan => "NaN"
  | .infinite negative => if negative then "-inf" else "inf"
  | .finite negative significand exponent =>
    let text := layout.magnitude significand exponent
    String.ofList (if negative then '-' :: text else text)

end BehaviorTree.Decimal
