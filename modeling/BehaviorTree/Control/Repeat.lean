import BehaviorTree.Control.Decorator

namespace BehaviorTree

/-!
# Running a child again and again

A repeater counts the completed runs of its child and succeeds with the one that reaches its
limit.  Each tick runs the child at most once; the next run starts on the next tick.
-/

/-- The settings of a repeater. -/
structure Repeat where
  /-- How many completed runs make a success; without it the repeater never ends. -/
  limit : Option UInt32 := none
  /-- Whether a failed run ends the repeater with a failure. -/
  stopOnFailure : Bool := false
  /-- Whether the child is reset between two runs. -/
  resetChild : Bool := true
deriving DecidableEq, Repr

namespace Repeat

variable {γ η : Type}

/-- The settings with a property. -/
def configure (key : String) (value : PropertyValue) (s : Repeat) : Repeat :=
  if key = "count" then { s with limit := value.asInteger?.bind toWord? }
  else if key = "stop_on_failure" then { s with stopOnFailure := value.asFlag?.getD false }
  else if key = "reset_child" then { s with resetChild := value.asFlag?.getD true }
  else s

/-- Whether so many completed runs are enough. -/
def reached (s : Repeat) (count : UInt32) : Bool := s.limit.any (· ≤ count)

/-- The tick on which the child completed a run, the `count`-th. -/
def complete (m : Machine γ η) (s : Repeat) (count : UInt32) (cs : List γ) (w : World η) :
    Outcome (UInt32 × List γ) η :=
  if s.reached count then ⟨.success, (count, cs), w⟩
  else if s.resetChild then
    let (cs, w) := m.resetAll cs w
    ⟨.running, (count, cs), w⟩
  else ⟨.running, (count, cs), w⟩

/-- One tick of a repeater that has counted `count` completed runs. -/
def tick (m : Machine γ η) (name : String) (now : Moment) (s : Repeat) (count : UInt32)
    (cs : List γ) (w : World η) : Outcome (UInt32 × List γ) η :=
  if s.reached count then ⟨.success, (count, cs), w⟩
  else match cs with
    | [] => ⟨.failure, (count, []), w.emit (childMissing name)⟩
    | c :: cs =>
      let o := m.tick now c w
      match o.status with
      | .running => ⟨.running, (count, o.next :: cs), o.world⟩
      | .success => complete m s (bump count) (o.next :: cs) o.world
      | .failure =>
        if s.stopOnFailure then ⟨.failure, (bump count, o.next :: cs), o.world⟩
        else complete m s (bump count) (o.next :: cs) o.world

end Repeat

end BehaviorTree
