import BehaviorTree.Control.Decorator

namespace BehaviorTree

/-!
# A limit on the time of a run

A timeout node notes the time at which a run of its child starts.  Once the limit has passed it
cancels the child instead of ticking it, and ends the run with an answer of its own.
-/

/-- The settings of a timeout node. -/
structure Timeout where
  /-- The limit, in seconds. -/
  limit : Float := 5.0
  /-- Whether a run that reaches the limit counts as a success. -/
  successOnTimeout : Bool := false
deriving DecidableEq, Repr

namespace Timeout

variable {γ η : Type}

/-- The limit of a timeout node without one. -/
def defaultLimit : Float := 5.0

/-- The least limit. -/
def leastLimit : Float := 0.1

/-- Settings; a limit is never below the least one. -/
def withSettings (limit : Option Float) (successOnTimeout : Option Bool) : Timeout where
  limit := (limit.map (atLeast leastLimit)).getD defaultLimit
  successOnTimeout := successOnTimeout.getD false

/-- The settings with a property. -/
def configure (key : String) (value : PropertyValue) (s : Timeout) : Timeout :=
  if key = "timeout" then
    { s with limit := (value.asReal?.map (atLeast leastLimit)).getD defaultLimit }
  else if key = "success_on_timeout" then
    { s with successOnTimeout := value.asFlag?.getD false }
  else s

/-- One tick of a node whose run began at `startedAt`, or begins now. -/
def tick (m : Machine γ η) (name : String) (now : Moment) (s : Timeout)
    (startedAt : Option Float) (cs : List γ) (w : World η) :
    Outcome (Option Float × List γ) η :=
  let start := startedAt.getD now.now
  if s.limit ≤ now.elapsed start then
    let (cs, w) := m.cancelAll cs w
    ⟨.ofBool s.successOnTimeout, (none, cs), w⟩
  else match cs with
    | [] => ⟨.failure, (none, []), w.emit (childMissing name)⟩
    | c :: cs =>
      let o := m.tick now c w
      ⟨o.status, (if o.status.isTerminal then none else some start, o.next :: cs), o.world⟩

end Timeout

end BehaviorTree
