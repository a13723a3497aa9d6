namespace BehaviorTree

/-!
# Ticks and time

Time is a double, in seconds.  A node sees of it only the reading that comes with the tick, and
measures a duration from an earlier reading with `Moment.elapsed`.

A clock is a place in a `Clocks` store, so that two handles on one clock read the same time;
`Clocks.advance` never moves a clock back, `Clocks.set` may.
-/

/-- `x`, or `floor` where `x` is below it or a NaN. -/
def atLeast (floor x : Float) : Float := if floor ≤ x then x else floor

/-- The inputs of one tick that are not state: its number and a reading of the clock. -/
structure Moment where
  /-- The number of ticks before this one. -/
  tick : Nat
  /-- The reading of the clock, in seconds. -/
  now : Float
deriving Repr

/-- The seconds since `since`, never negative. -/
def Moment.elapsed (m : Moment) (since : Float) : Float := atLeast 0.0 (m.now - since)

/-- A reading moved forward by `seconds`; a step that is not positive moves nothing. -/
def forward (reading seconds : Float) : Float :=
  if 0.0 < seconds then reading + seconds else reading

/-- A handle on a clock. -/
structure Clock where
  index : Nat
deriving DecidableEq, Repr

/-- The readings of all clocks, each at its handle's index. -/
structure Clocks where
  readings : List Float
deriving Repr

namespace Clocks

/-- No clock yet. -/
def empty : Clocks := ⟨[]⟩

/-- A new clock that reads `start`. -/
def create (cs : Clocks) (start : Float) : Clock × Clocks :=
  (⟨cs.readings.length⟩, ⟨cs.readings ++ [start]⟩)

/-- The reading of a clock. -/
def now (cs : Clocks) (c : Clock) : Float := cs.readings.getD c.index 0.0

/-- Sets a clock to a reading. -/
def set (cs : Clocks) (c : Clock) (reading : Float) : Clocks :=
  ⟨cs.readings.set c.index reading⟩

/-- Moves a clock forward. -/
def advance (cs : Clocks) (c : Clock) (seconds : Float) : Clocks :=
  cs.set c (forward (cs.now c) seconds)

@[simp]
theorem now_create (cs : Clocks) (start : Float) :
    (cs.create start).2.now (cs.create start).1 = start := by
  simp [create, now]

theorem now_set_of_ne (cs : Clocks) {c d : Clock} (h : c ≠ d) (reading : Float) :
    (cs.set c reading).now d = cs.now d := by
  have hne : c.index ≠ d.index := fun e => h (by cases c; cases d; simp_all)
  simp [set, now, List.getElem?_set_ne hne]

end Clocks

end BehaviorTree
