import BehaviorTree.Control.Congruence
import BehaviorTree.Node.Broadcast

namespace BehaviorTree

/-!
# One tick of a tree

`Node.execute` advances a tree by one tick.  A retry node ticks a child that it has just reset, so
the recursion is on the number of levels, which a reset keeps.

* `Node.execute_leaf` and `Node.execute_inner` say what a tick is, without the levels: a leaf does
  what its behaviour does, and an inner node does what its control does with `Node.machine`, by
  which the children execute, reset and cancel as trees of their own.
-/

namespace Node

variable {β η : Type} [Behavior β η]

/-- Trees of at most so many levels as children. -/
def machineUpTo : Nat → Machine (Node β) η
  | 0 => ⟨fun _ n w => ⟨.running, n, w⟩, reset, cancel⟩
  | levels + 1 =>
    { tick := fun now n w =>
        match n with
        | .leaf info kind b => (Behavior.tick now info.agent b w).map (.leaf info kind)
        | .inner info control cs =>
          (control.tick (machineUpTo levels) info.name now cs w).map
            fun r => .inner info r.1 r.2
      reset := reset
      cancel := cancel }

/-- Advances a tree by one tick. -/
def execute (now : Moment) (n : Node β) (w : World η) : Outcome (Node β) η :=
  (machineUpTo n.depth).tick now n w

/-- Trees as children. -/
def machine : Machine (Node β) η := ⟨execute, reset, cancel⟩

@[simp]
theorem reset_machineUpTo (levels : Nat) :
    (machineUpTo levels : Machine (Node β) η).reset = reset := by cases levels <;> rfl

@[simp]
theorem cancel_machineUpTo (levels : Nat) :
    (machineUpTo levels : Machine (Node β) η).cancel = cancel := by cases levels <;> rfl

/-- More levels than a tree has do not change its tick. -/
theorem tick_machineUpTo {levels : Nat} {n : Node β} (h : n.depth ≤ levels) (now : Moment)
    (w : World η) : (machineUpTo levels).tick now n w = execute now n w := by
  induction levels using Nat.strongRecOn generalizing n w now with
  | ind levels ih =>
    unfold execute
    cases n with
    | leaf info kind b =>
      cases levels with
      | zero => simp [depth] at h
      | succ levels => simp [machineUpTo, depth]
    | inner info control cs =>
      cases levels with
      | zero => simp [depth] at h
      | succ levels =>
        have hle : depthAll cs ≤ levels := by simpa [depth] using h
        have agree : Machine.AgreeOn (fun c : Node β => c.depth ≤ depthAll cs)
            (machineUpTo levels : Machine (Node β) η) (machineUpTo (depthAll cs)) :=
          { tick := fun now c w hc =>
              (ih levels (by omega) (by omega) now w).trans
                (ih (depthAll cs) (by omega) hc now w).symm
            reset := by simp
            cancel := by simp
            closed := fun c h hc => by simpa using hc }
        have hcs : ∀ c ∈ cs, c.depth ≤ depthAll cs := fun c hc => depth_le_depthAll hc
        simp only [machineUpTo, depth, Control.tick_congr agree info.name now control hcs w]

/-- A leaf does what its behaviour does. -/
@[simp]
theorem execute_leaf (now : Moment) (info : NodeInfo) (kind : LeafKind) (b : β) (w : World η) :
    execute now (.leaf info kind b) w =
      (Behavior.tick now info.agent b w).map (.leaf info kind) := by
  simp [execute, machineUpTo, depth]

/-- An inner node does what its control does with the children as trees of their own. -/
theorem execute_inner (now : Moment) (info : NodeInfo) (control : Control) (cs : List (Node β))
    (w : World η) :
    execute now (.inner info control cs) w =
      (control.tick machine info.name now cs w).map fun r => .inner info r.1 r.2 := by
  have agree : Machine.AgreeOn (fun c : Node β => c.depth ≤ depthAll cs)
      (machineUpTo (depthAll cs) : Machine (Node β) η) machine :=
    { tick := fun now c w hc => tick_machineUpTo hc now w
      reset := by simp [machine]
      cancel := by simp [machine]
      closed := fun c h hc => by simpa using hc }
  have hcs : ∀ c ∈ cs, c.depth ≤ depthAll cs := fun c hc => depth_le_depthAll hc
  simp only [execute, machineUpTo, depth, Control.tick_congr agree info.name now control hcs w]

end Node

end BehaviorTree
