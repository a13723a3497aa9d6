import BehaviorTree.Decimal.Binary

namespace BehaviorTree.Decimal

/-!
# The fewest digits that read back

`shortest` finds, for a positive double, the coarsest power-of-ten grid with a point among the
reals that round to it, and of the points on that grid the one nearest to it.  All lengths are
natural numbers, in units of a quarter of the finest grid that is needed.

The search goes from coarse grids to fine ones and ends at the latest on the grid on which the
double itself is a point, so it needs no bound from outside.
-/

/-- Which way a value goes that lies in the middle between two points of a grid. -/
inductive Tie where
  | up
  | even
deriving DecidableEq, Repr

/-- The reals that round to a double: from `low` to `high` around `value`, with both ends or
    without either. -/
structure Neighbourhood where
  value : Nat
  low : Nat
  high : Nat
  closed : Bool
deriving DecidableEq, Repr

namespace Neighbourhood

/-- Whether `x` rounds to the double. -/
def holds (n : Neighbourhood) (x : Nat) : Bool :=
  if n.closed then n.low ≤ x && x ≤ n.high else n.low < x && x < n.high

/-- The number of decimals that write the double exactly. -/
def decimals (exponent : Int) : Nat := (-exponent).toNat

/-- The reals around `significand * 2 ^ exponent`, in units of `10 ^ (-decimals) / 4`.  Below a
    power of two doubles lie closer together. -/
def around (significand : Nat) (exponent : Int) : Neighbourhood :=
  let unit := Nat.pow 5 (decimals exponent) * Nat.pow 2 exponent.toNat
  let below :=
    if significand = Nat.pow 2 Binary.fractionBits ∧ Binary.lowestExponent < exponent then 1 else 2
  { value := 4 * significand * unit
    low := (4 * significand - below) * unit
    high := (4 * significand + 2) * unit
    closed := significand % 2 = 0 }

/-- The point of the grid of width `width` that rounds to the double, if there is one: the
    nearer of its two neighbours on the grid, or the only one that does. -/
def gridPoint? (n : Neighbourhood) (tie : Tie) (width : Nat) : Option Nat :=
  let t := n.value / width
  let r := n.value % width
  match n.holds (t * width), n.holds ((t + 1) * width) with
  | true, false => some t
  | false, true => some (t + 1)
  | true, true =>
    if 2 * r < width then some t
    else if width < 2 * r then some (t + 1)
    else match tie with
      | .up => some (t + 1)
      | .even => if t % 2 = 0 then some t else some (t + 1)
  | false, false => none

/-- The first grid from step `step` down with a point in the neighbourhood, as that point and
    the step. -/
def search (n : Neighbourhood) (tie : Tie) : Nat → Nat × Nat
  | 0 => (n.value / 4, 0)
  | step + 1 =>
    match n.gridPoint? tie (4 * Nat.pow 10 (step + 1)) with
    | some t => (t, step + 1)
    | none => n.search tie step

/-- A step whose grid is wider than the value. -/
def coarsest (n : Neighbourhood) : Nat := n.value.log2 * 1234 / 4096 + 1

end Neighbourhood

/-- A decimal `digits * 10 ^ exponent`. -/
structure Scientific where
  digits : Nat
  exponent : Int
deriving DecidableEq, Repr

/-- The decimal with the fewest digits that reads back as `significand * 2 ^ exponent`. -/
def shortest (tie : Tie) (significand : Nat) (exponent : Int) : Scientific :=
  let n := Neighbourhood.around significand exponent
  let (digits, step) := n.search tie n.coarsest
  { digits, exponent := step - Neighbourhood.decimals exponent }

end BehaviorTree.Decimal
