import BehaviorTree.Proofs.Node.Simulation

namespace BehaviorTree

/-!
# Resets and cancellations over the leaves of the library

The leaves of the library do nothing to the host when they are reset or cancelled, so for trees over
them both are plain functions, and a sweep over children is a map.

* `Node.restarted`, `Node.abandoned` — a tree after a reset, and after a cancellation;
* `Node.resetAll_machine` — a reset of all children leaves the world as it was;
* `Node.SameStart` — two trees are in one state after a reset, whatever their progress is now;
* `Node.restarted_of_unstarted` — a tree without progress is what a reset makes of it.
-/

variable {η : Type}

namespace Node

/-! ### Trees after a reset or a cancellation -/

/-- A tree after a reset. -/
def restarted (n : Node Builtin) : Node Builtin := (n.reset ()).1

/-- A tree after a cancellation. -/
def abandoned (n : Node Builtin) : Node Builtin := (n.cancel ()).1

/-- The leaves of the library do not look at the host, so neither does a broadcast to them. -/
theorem broadcast_restart (onControl : Control → Control) (n : Node Builtin) (h : η) :
    broadcast (fun b h => (b.restart, h)) onControl n h =
      ((broadcast (fun b h => (b.restart, h)) onControl n ()).1, h) := by
  induction n generalizing h with
  | leaf info kind b => rw [broadcast_leaf, broadcast_leaf]
  | inner info control cs ih =>
    have hunit : ∀ c ∈ cs, ∀ u : Unit, broadcast (fun b h => (b.restart, h)) onControl c u =
        ((broadcast (fun b h => (b.restart, h)) onControl c ()).1, u) := fun c hc u => rfl
    rw [broadcast_inner, broadcast_inner, Machine.sweep_eq_map ih, Machine.sweep_eq_map hunit]

theorem reset_eq (n : Node Builtin) (h : η) : n.reset h = (n.restarted, h) :=
  broadcast_restart Control.restart n h

theorem cancel_eq (n : Node Builtin) (h : η) : n.cancel h = (n.abandoned, h) :=
  broadcast_restart Control.abandon n h

@[simp]
theorem restarted_leaf (info : NodeInfo) (kind : LeafKind) (b : Builtin) :
    (leaf info kind b).restarted = leaf info kind b.restart :=
  congrArg Prod.fst (broadcast_leaf _ _ info kind b ())

@[simp]
theorem restarted_inner (info : NodeInfo) (control : Control) (cs : List (Node Builtin)) :
    (inner info control cs).restarted = inner info control.restart (cs.map restarted) := by
  have hsweep : Machine.sweep (broadcast Behavior.reset Control.restart) cs () =
      (cs.map restarted, ()) := Machine.sweep_eq_map (fun c _ h => reset_eq c h) ()
  rw [restarted, reset, broadcast_inner, hsweep]

@[simp]
theorem abandoned_inner (info : NodeInfo) (control : Control) (cs : List (Node Builtin)) :
    (inner info control cs).abandoned = inner info control.abandon (cs.map abandoned) := by
  have hsweep : Machine.sweep (broadcast Behavior.cancel Control.abandon) cs () =
      (cs.map abandoned, ()) := Machine.sweep_eq_map (fun c _ h => cancel_eq c h) ()
  rw [abandoned, cancel, broadcast_inner, hsweep]

theorem resetAll_machine (cs : List (Node Builtin)) (w : World η) :
    machine.resetAll cs w = (cs.map restarted, w) := by
  have hsweep : Machine.sweep reset cs w.host = (cs.map restarted, w.host) :=
    Machine.sweep_eq_map (fun c _ h => reset_eq c h) w.host
  simp only [Machine.resetAll, machine, World.atHost, hsweep]

/-! ### Trees that start alike -/

/-- The state of a tree at the start of a run. -/
def startState (n : Node Builtin) : Rose (String × Setup × Progress) :=
  n.view fun m => (m.name, m.setup, m.setup.start)

/-- The two trees are in one state at the start of a run. -/
def SameStart (n m : Node Builtin) : Prop := n.startState = m.startState

theorem startState_called {n m : Node Builtin} (h : Called η n m) : m.startState = n.startState :=
  (steady_of_setup fun info setup => (info.name, setup, setup.start)).view_called h

@[simp]
theorem startState_restarted (n : Node Builtin) : n.restarted.startState = n.startState :=
  startState_called (.reset () (.refl n))

@[simp]
theorem startState_abandoned (n : Node Builtin) : n.abandoned.startState = n.startState :=
  startState_called (.cancel () (.refl n))

theorem state_restarted (n : Node Builtin) : n.restarted.state = n.startState := by
  apply view_broadcast
  · intro info kind b h
    show (info.name, Setup.leaf kind b.restart.settings, Progress.leaf b.restart.startedAt) =
      (info.name, Setup.leaf kind b.settings, Progress.leaf b.settings.start.startedAt)
    rw [Builtin.settings_restart, Builtin.startedAt_restart, Builtin.startedAt_start]
  · intro info control cs ds
    show (info.name, Setup.inner control.restart.settings, Progress.inner control.restart.progress) =
      (info.name, Setup.inner control.settings, Progress.inner control.settings.start.progress)
    rw [Control.settings_restart, Control.restart_eq_start]

theorem sameState_restarted_iff {n m : Node Builtin} :
    SameState n.restarted m.restarted ↔ SameStart n m := by
  unfold SameState SameStart
  rw [state_restarted, state_restarted]

theorem SameState.restarted {n m : Node Builtin} (h : SameState n m) :
    SameState n.restarted m.restarted :=
  (machine_simulation.reset n m () h).1

theorem SameState.abandoned {n m : Node Builtin} (h : SameState n m) :
    SameState n.abandoned m.abandoned :=
  (machine_simulation.cancel n m () h).1

theorem SameState.sameStart {n m : Node Builtin} (h : SameState n m) : SameStart n m :=
  sameState_restarted_iff.1 h.restarted

/-! ### Trees without progress -/

/-- A tree without progress is what a reset makes of it. -/
theorem restarted_of_unstarted {n : Node Builtin} (h : n.Unstarted) : n.restarted = n := by
  induction n with
  | leaf info kind b =>
    have hb : b.restart = b := Builtin.eq_of_parts b.settings_restart
      (b.startedAt_restart.trans (unstarted_leaf.1 h).symm)
    rw [restarted_leaf, hb]
  | inner info control cs ih =>
    obtain ⟨hcontrol, hcs⟩ := unstarted_inner.1 h
    have hrestart : control.restart = control := Control.eq_of_parts control.settings_restart
      (by rw [Control.restart_eq_start, hcontrol])
    have hchildren : cs.map restarted = cs :=
      (List.map_congr_left fun c hc => ih c hc (hcs c hc)).trans (List.map_id' cs)
    rw [restarted_inner, hrestart, hchildren]

theorem map_restarted_of_unstarted {cs : List (Node Builtin)} (h : ∀ c ∈ cs, c.Unstarted) :
    cs.map restarted = cs :=
  (List.map_congr_left fun c hc => restarted_of_unstarted (h c hc)).trans (List.map_id' cs)

end Node

end BehaviorTree
