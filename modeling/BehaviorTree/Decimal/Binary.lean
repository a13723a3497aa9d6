namespace BehaviorTree.Decimal

/-!
# Doubles taken apart and put together

A double is a NaN, an infinity or an exact binary fraction `± significand * 2 ^ exponent`.

* `Binary.ofFloat` reads the three fields of the bit pattern.
* `nearest` is the double closest to a fraction, a half going to the even neighbour; every
  reader of decimal text ends in it.
* `toInt?` and `toInt64` are the exact integer and the clamped integer of a double.
-/

/-- What a double stands for. -/
inductive Binary where
  | nan
  | infinite (negative : Bool)
  /-- The value `significand * 2 ^ exponent`, negated when `negative`. -/
  | finite (negative : Bool) (significand : Nat) (exponent : Int)
deriving DecidableEq, Repr

namespace Binary

/-- The number of stored bits of a significand. -/
def fractionBits : Nat := 52

/-- The exponent of the finest doubles. -/
def lowestExponent : Int := -1074

/-- The value written in the bits of a double. -/
def ofBits (bits : Nat) : Binary :=
  let negative := bits / Nat.pow 2 63 % 2 == 1
  let exponent := bits / Nat.pow 2 fractionBits % Nat.pow 2 11
  let fraction := bits % Nat.pow 2 fractionBits
  if exponent = 2047 then
    if fraction = 0 then .infinite negative else .nan
  else if exponent = 0 then .finite negative fraction lowestExponent
  else .finite negative (Nat.pow 2 fractionBits + fraction) (lowestExponent + (exponent - 1 : Nat))

/-- The value of a double. -/
def ofFloat (x : Float) : Binary := ofBits x.toBits.toNat

end Binary

/-- Whether `x` is neither a NaN nor an infinity. -/
def isFinite (x : Float) : Bool :=
  match Binary.ofFloat x with
  | .finite .. => true
  | _ => false

/-! ### Rounding -/

/-- The quotient rounded to the nearest integer, a half going to the even neighbour. -/
def roundDiv (num den : Nat) : Nat :=
  let q := num / den
  let r := num % den
  if den < 2 * r ∨ (2 * r = den ∧ q % 2 = 1) then q + 1 else q

/-- A fraction over `2 ^ exponent`, as numerator and denominator. -/
def overPower (num den : Nat) (exponent : Int) : Nat × Nat :=
  (num * Nat.pow 2 (-exponent).toNat, den * Nat.pow 2 exponent.toNat)

/-- The exponent of the doubles around `num / den`: the one that gives a quotient of
    53 bits, or the lowest there is. -/
def exponentOf (num den : Nat) : Int :=
  let guess := max (num.log2 - den.log2 - Binary.fractionBits : Int) Binary.lowestExponent
  let scaled := overPower num den guess
  if scaled.1 / scaled.2 < Nat.pow 2 Binary.fractionBits ∧ Binary.lowestExponent < guess then
    guess - 1
  else guess

/-- The bits of the nonnegative double closest to `num / den`: infinity from the middle
    between the greatest double and its successor on. -/
def nearestBits (num den : Nat) : Nat :=
  if num = 0 then 0
  else
    let exponent := exponentOf num den
    let scaled := overPower num den exponent
    let steps := (exponent - Binary.lowestExponent).toNat
    let step := Nat.pow 2 Binary.fractionBits
    -- a quotient of 53 bits has its top bit counted by the exponent field
    min (steps * step + roundDiv scaled.1 scaled.2) (2047 * step)

/-- The double closest to `num / den`, negated when `negative`. -/
def nearest (negative : Bool) (num den : Nat) : Float :=
  Float.ofBits (UInt64.ofNat (nearestBits num den + if negative then Nat.pow 2 63 else 0))

/-- The infinity of a sign. -/
def infinity (negative : Bool) : Float :=
  Float.ofBits (if negative then 0xFFF0000000000000 else 0x7FF0000000000000)

/-- The quiet NaN of a sign. -/
def notANumber (negative : Bool) : Float :=
  Float.ofBits (if negative then 0xFFF8000000000000 else 0x7FF8000000000000)

/-- The double closest to an integer. -/
def ofInt (n : Int) : Float := nearest (n < 0) n.natAbs 1

/-! ### Integers -/

/-- The integer that `x` is exactly. -/
def toInt? (x : Float) : Option Int :=
  match Binary.ofFloat x with
  | .finite negative significand exponent =>
    let (num, den) := overPower significand 1 (-exponent)
    if num % den = 0 then
      some (if negative then -(num / den : Nat) else (num / den : Nat))
    else none
  | _ => none

/-- An integer moved into the range of 64-bit words. -/
def clampInt64 (n : Int) : Int64 :=
  Int64.ofInt (min (max n Int64.minValue.toInt) Int64.maxValue.toInt)

end BehaviorTree.Decimal
