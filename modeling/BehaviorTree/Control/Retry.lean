import BehaviorTree.Control.Decorator

namespace BehaviorTree

/-!
# Trying again after a failure

A retry node answers a failure of its child with `running` and waits.  The budget is looked at
when the next tick comes: if the failures have used it up that tick is the failure of the node, and
otherwise, once the delay is over, the child is reset and ticked again.
-/

/-- The settings of a retry node. -/
structure Retry where
  /-- How many failures are tried again. -/
  budget : UInt32 := 3
  /-- The seconds between a failure and the next try. -/
  delay : Float := 0.0
deriving DecidableEq, Repr

namespace Retry

variable {γ η : Type}

/-- How far a retry node has come. -/
structure Progress where
  /-- The failures since the last success. -/
  failures : UInt32 := 0
  /-- When the child failed, while the node waits to try it again. -/
  waitingSince : Option Float := none
deriving DecidableEq, Repr

/-- The budget of a retry node without one. -/
def defaultBudget : UInt32 := 3

/-- Settings; a delay that is not positive is none. -/
def withSettings (budget : Option UInt32) (delay : Option Float) : Retry where
  budget := budget.getD defaultBudget
  delay := (delay.map (atLeast 0.0)).getD 0.0

/-- The settings with a property. -/
def configure (key : String) (value : PropertyValue) (s : Retry) : Retry :=
  if key = "max_retries" then
    { s with budget := (value.asInteger?.bind toWord?).getD defaultBudget }
  else if key = "retry_delay" then
    { s with delay := (value.asReal?.filter (0.0 ≤ ·)).getD 0.0 }
  else s

/-- Whether the delay after a failure at `since` is not over yet. -/
def delayed (s : Retry) (now : Moment) (since : Float) : Bool :=
  0.0 < s.delay && now.elapsed since < s.delay

/-- The child's try, with the failures before it. -/
def attempt (m : Machine γ η) (name : String) (now : Moment) (failures : UInt32) :
    List γ → World η → Outcome (Progress × List γ) η
  | [], w => ⟨.failure, ({ failures }, []), w.emit (childMissing name)⟩
  | c :: cs, w =>
    let o := m.tick now c w
    match o.status with
    | .running => ⟨.running, ({ failures }, o.next :: cs), o.world⟩
    | .success => ⟨.success, ({}, o.next :: cs), o.world⟩
    | .failure =>
      ⟨.running, ({ failures := bump failures, waitingSince := some now.now }, o.next :: cs),
        o.world⟩

/-- One tick. -/
def tick (m : Machine γ η) (name : String) (now : Moment) (s : Retry) (p : Progress)
    (cs : List γ) (w : World η) : Outcome (Progress × List γ) η :=
  match p.waitingSince with
  | none => attempt m name now p.failures cs w
  | some since =>
    if s.budget < p.failures then ⟨.failure, ({}, cs), w⟩
    else if s.delayed now since then ⟨.running, (p, cs), w⟩
    else
      let (cs, w) := m.resetAll cs w
      attempt m name now p.failures cs w

end Retry

end BehaviorTree
