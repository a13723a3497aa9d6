import BehaviorTree.Node.Edit
import BehaviorTree.Node.Execute

namespace BehaviorTree

/-!
# Driving a tree

A runner numbers the ticks of a tree and resets the tree when a tick ends its run, so that the next
tick starts a fresh one.
-/

/-- A tree with the number of its ticks and its last answer. -/
structure Runner (β : Type) where
  root : Node β
  ticks : Nat := 0
  last : Status := .running

namespace Runner

variable {β η : Type}

/-- Binds an agent to the whole tree. -/
def withAgent (r : Runner β) (a : Agent) : Runner β := { r with root := r.root.bindAgent a }

/-- One tick at a reading of the clock. -/
def tick [Behavior β η] (r : Runner β) (reading : Float) (w : World η) :
    Runner β × World η :=
  let o := r.root.execute ⟨r.ticks, reading⟩ w
  if o.status.isTerminal then
    let w := o.world.tell [.treeFinished r.ticks o.status o.next.name]
    let (root, w) := w.atHost o.next.reset
    (⟨root, r.ticks + 1, o.status⟩, w)
  else (⟨o.next, r.ticks + 1, o.status⟩, o.world)

/-- Abandons the current run: every node is cancelled, and then every node is reset. -/
def reset [Behavior β η] (r : Runner β) (h : η) : Runner β × η :=
  let (root, h) := r.root.cancel h
  let (root, h) := root.reset h
  ({ r with root, last := .running }, h)

/-- A runner as diagnostics show it. -/
def describe (r : Runner β) : String :=
  "BehaviorTree \x7b root: " ++ Text.quote r.root.name ++ ", tick: " ++ toString r.ticks ++
    ", last: " ++ r.last.name ++ ", .. \x7d"

end Runner

end BehaviorTree
