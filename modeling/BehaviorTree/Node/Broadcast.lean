import BehaviorTree.Node.Basic

namespace BehaviorTree

/-!
# Resets and cancellations

Both go to every node of a tree: each inner node changes its own progress, and each leaf is told
once, from left to right.

* `Node.reset` returns a tree to the start of a run.
* `Node.cancel` abandons a run; the cursors of sequences and selectors stay where they are.
* `Node.broadcast_inner` is the equation both follow from, with the children as one sweep.
* `Node.leaves_broadcast` says what the leaves get: a broadcast is one sweep over all of them.
-/

namespace Node

variable {β η : Type}

mutual

/-- Changes every leaf with `onLeaf`, from left to right, and every control with `onControl`. -/
def broadcast (onLeaf : β → η → β × η) (onControl : Control → Control) :
    Node β → η → Node β × η
  | .leaf info kind b, h =>
    let (b, h) := onLeaf b h
    (.leaf info kind b, h)
  | .inner info control cs, h =>
    let (cs, h) := broadcastAll onLeaf onControl cs h
    (.inner info (onControl control) cs, h)

/-- The same for several trees, from left to right. -/
def broadcastAll (onLeaf : β → η → β × η) (onControl : Control → Control) :
    List (Node β) → η → List (Node β) × η
  | [], h => ([], h)
  | c :: cs, h =>
    let (c, h) := broadcast onLeaf onControl c h
    let (cs, h) := broadcastAll onLeaf onControl cs h
    (c :: cs, h)

end

/-- Returns every node of a tree to the start of a run. -/
def reset [Behavior β η] : Node β → η → Node β × η :=
  broadcast Behavior.reset Control.restart

/-- Tells every node of a tree that its run is abandoned. -/
def cancel [Behavior β η] : Node β → η → Node β × η :=
  broadcast Behavior.cancel Control.abandon

theorem broadcastAll_eq_sweep (onLeaf : β → η → β × η) (onControl : Control → Control)
    (cs : List (Node β)) (h : η) :
    broadcastAll onLeaf onControl cs h = Machine.sweep (broadcast onLeaf onControl) cs h := by
  induction cs generalizing h with
  | nil => simp [broadcastAll]
  | cons c cs ih => simp [broadcastAll, Machine.sweep_cons, ih]

@[simp]
theorem broadcast_leaf (onLeaf : β → η → β × η) (onControl : Control → Control)
    (info : NodeInfo) (kind : LeafKind) (b : β) (h : η) :
    broadcast onLeaf onControl (.leaf info kind b) h =
      (.leaf info kind (onLeaf b h).1, (onLeaf b h).2) := by
  simp [broadcast]

theorem broadcast_inner (onLeaf : β → η → β × η) (onControl : Control → Control)
    (info : NodeInfo) (control : Control) (cs : List (Node β)) (h : η) :
    broadcast onLeaf onControl (.inner info control cs) h =
      (.inner info (onControl control)
        (Machine.sweep (broadcast onLeaf onControl) cs h).1,
        (Machine.sweep (broadcast onLeaf onControl) cs h).2) := by
  simp [broadcast, broadcastAll_eq_sweep]

mutual

/-- A broadcast keeps the shape of a tree. -/
theorem depth_broadcast (onLeaf : β → η → β × η) (onControl : Control → Control)
    (n : Node β) (h : η) : (broadcast onLeaf onControl n h).1.depth = n.depth := by
  cases n with
  | leaf info kind b => simp [broadcast, depth]
  | inner info control cs =>
    simp only [broadcast, depth]
    rw [depthAll_broadcastAll onLeaf onControl cs h]

theorem depthAll_broadcastAll (onLeaf : β → η → β × η) (onControl : Control → Control)
    (cs : List (Node β)) (h : η) :
    depthAll (broadcastAll onLeaf onControl cs h).1 = depthAll cs := by
  cases cs with
  | nil => simp [broadcastAll]
  | cons c cs =>
    simp only [broadcastAll, depthAll_cons]
    rw [depth_broadcast onLeaf onControl c h, depthAll_broadcastAll onLeaf onControl cs]

end

mutual

/-- A broadcast does to the leaves of a tree, and to the host, what one sweep over the leaves does. -/
theorem leaves_broadcast (onLeaf : β → η → β × η) (onControl : Control → Control)
    (n : Node β) (h : η) :
    (broadcast onLeaf onControl n h).1.leaves = (Machine.sweep onLeaf n.leaves h).1 ∧
      (broadcast onLeaf onControl n h).2 = (Machine.sweep onLeaf n.leaves h).2 := by
  cases n with
  | leaf info kind b => simp [leaves, Machine.sweep_cons]
  | inner info control cs =>
    simp only [broadcast, leaves]
    exact leavesAll_broadcastAll onLeaf onControl cs h

theorem leavesAll_broadcastAll (onLeaf : β → η → β × η) (onControl : Control → Control)
    (cs : List (Node β)) (h : η) :
    leavesAll (broadcastAll onLeaf onControl cs h).1 = (Machine.sweep onLeaf (leavesAll cs) h).1 ∧
      (broadcastAll onLeaf onControl cs h).2 = (Machine.sweep onLeaf (leavesAll cs) h).2 := by
  cases cs with
  | nil => simp [broadcastAll, leavesAll]
  | cons c cs =>
    obtain ⟨hleaves, hhost⟩ := leaves_broadcast onLeaf onControl c h
    obtain ⟨hrest, hend⟩ :=
      leavesAll_broadcastAll onLeaf onControl cs (broadcast onLeaf onControl c h).2
    rw [hhost] at hrest hend
    simp only [broadcastAll, leavesAll, Machine.sweep_append, hleaves, hhost, hrest, hend, and_self]

end

@[simp]
theorem depth_reset [Behavior β η] (n : Node β) (h : η) : (n.reset h).1.depth = n.depth :=
  depth_broadcast _ _ n h

@[simp]
theorem depth_cancel [Behavior β η] (n : Node β) (h : η) : (n.cancel h).1.depth = n.depth :=
  depth_broadcast _ _ n h

end Node

end BehaviorTree
