import BehaviorTree.Control.Machine

namespace BehaviorTree

/-!
# Children side by side

A parallel node ticks every child on every tick and decides by counting: enough successes make a
success, enough failures a failure, and so does a tick on which no child runs but the successes do
not suffice.  When it decides, the children that answered that they run are cancelled, and then
all children are reset.
-/

/-- The thresholds of a parallel node as they were set. -/
structure Parallel where
  /-- How many successes make a success; without it, all of them. -/
  success : Option Nat
  /-- How many failures make a failure. -/
  failure : Nat
deriving DecidableEq, Repr

namespace Parallel

variable {γ η : Type}

/-- All successes, or one failure. -/
def fresh : Parallel := ⟨none, 1⟩

/-- Thresholds, of at least one each. -/
def withThresholds (success failure : Nat) : Parallel := ⟨some (max success 1), max failure 1⟩

/-- A threshold moved into the range from one to the number of children. -/
def clamp (threshold children : Nat) : Nat := min (max threshold 1) (max children 1)

/-- The number of successes that make a success among so many children. -/
def needSuccess (p : Parallel) (children : Nat) : Nat :=
  clamp (p.success.getD (max children 1)) children

/-- The number of failures that make a failure among so many children. -/
def needFailure (p : Parallel) (children : Nat) : Nat := clamp p.failure children

/-- A count that a property sets: an integer from one on. -/
def threshold? (value : PropertyValue) : Option Nat :=
  (value.asInteger?.filter (1 ≤ ·)).map fun n => n.toInt.toNat

/-- The settings with a property. -/
def configure (key : String) (value : PropertyValue) (p : Parallel) : Parallel :=
  if key = "success_threshold" then { p with success := threshold? value }
  else if key = "failure_threshold" then { p with failure := (threshold? value).getD 1 }
  else p

/-- The answer to the answers of the children. -/
def decide (p : Parallel) (answers : List Status) : Status :=
  let n := answers.length
  let successes := answers.count .success
  let failures := answers.count .failure
  if p.needSuccess n ≤ successes then .success
  else if p.needFailure n ≤ failures ∨ successes + failures = n then .failure
  else .running

/-- Cancels the children that answered that they run. -/
def cancelRunning (m : Machine γ η) : List Status → List γ → η → List γ × η
  | .running :: answers, c :: cs, h =>
    let (c, h) := m.cancel c h
    let (cs, h) := cancelRunning m answers cs h
    (c :: cs, h)
  | _ :: answers, c :: cs, h =>
    let (cs, h) := cancelRunning m answers cs h
    (c :: cs, h)
  | _, cs, h => (cs, h)

/-- One tick.  Without children it succeeds and touches nothing. -/
def tick (m : Machine γ η) (now : Moment) (p : Parallel) (cs : List γ) (w : World η) :
    Outcome (List γ) η :=
  if cs.isEmpty then ⟨.success, cs, w⟩
  else
    let (answers, cs, w) := m.tickAll now cs w
    match p.decide answers with
    | .running => ⟨.running, cs, w⟩
    | status =>
      let (cs, w) := w.atHost (cancelRunning m answers cs)
      let (cs, w) := m.resetAll cs w
      ⟨status, cs, w⟩

end Parallel

end BehaviorTree
