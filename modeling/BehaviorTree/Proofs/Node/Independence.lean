import BehaviorTree.Proofs.Node.Simulation

namespace BehaviorTree

/-!
# Runs are independent

A run of a tree over the leaves of the library leaves nothing behind for the next one.

* `Node.sameState_reset` — a reset undoes any history of calls: the tree is again in the state of a
  tree of its design that was never executed;
* `Runner.runs_independent` — after the end of a run and after a reset, a tree cannot be told from
  such a tree by any further ticks.
-/

variable {η : Type}

namespace Node

/-- A reset leads from any history of calls to the state of a tree that was never executed. -/
theorem sameState_reset {n n' copy : Node Builtin} (hcalls : Called η n n')
    (hcopy : Unexecuted copy) (hdesign : copy.design = n.design) (h : η) :
    SameState (n'.reset h).1 copy := by
  apply state_eq_of_design_eq (reset_unstarted n' h) hcopy.unstarted
  rw [design_called (.reset h hcalls), hdesign]

end Node

namespace Runner

open Node (pausing unexecuted_pausing)

/-- A tick that ends a run leaves a tree that was just reset. -/
theorem root_of_terminal {r : Runner Builtin} {reading : Float} {w : World η}
    (h : (r.tick reading w).1.last.isTerminal = true) :
    ∃ n, ∃ host : η, Node.Called η r.root n ∧ (r.tick reading w).1.root = (n.reset host).1 := by
  refine ⟨(r.root.execute ⟨r.ticks, reading⟩ w).next, (r.root.execute ⟨r.ticks, reading⟩ w).world.host,
    .execute _ w (.refl r.root), ?_⟩
  unfold tick at h ⊢
  dsimp only at h ⊢
  split
  · rfl
  · next hrunning =>
    rw [if_neg hrunning] at h
    exact absurd h hrunning

theorem ticks_tick (r : Runner Builtin) (reading : Float) (w : World η) :
    (r.tick reading w).1.ticks = r.ticks + 1 := by
  unfold tick
  dsimp only
  split <;> rfl

/-- Runs are independent.  Take a tree with any history of calls behind it, and a tree of the same
    design that was built and never executed.  The calls changed nothing but progress, and a reset
    undoes that.  A runner of the tree, once a tick has ended a run or it was reset, answers to all
    further ticks as a runner of the unexecuted tree does, and leaves the same worlds. -/
theorem runs_independent {n n' copy : Node Builtin} (hcalls : Node.Called η n n')
    (hcopy : Node.Unexecuted copy) (hdesign : copy.design = n.design) :
    n'.layout = n.layout ∧
    (∀ h : η, (n'.reset h).1.layout = n.layout ∧ (n'.reset h).1.state = copy.state) ∧
    (∀ (r : Runner Builtin) (reading : Float) (w w' : World η)
        (beats : List (Float × (World η → World η))),
      r.root = n' → (r.tick reading w).1.last.isTerminal = true →
        (r.tick reading w).1.run w' beats =
          ({ root := copy, ticks := r.ticks + 1 } : Runner Builtin).run w' beats) ∧
    (∀ (r : Runner Builtin) (h : η) (w' : World η) (beats : List (Float × (World η → World η))),
      r.root = n' →
        (r.reset h).1.run w' beats =
          ({ root := copy, ticks := r.ticks } : Runner Builtin).run w' beats) := by
  refine ⟨Node.layout_called hcalls, ?_, ?_, ?_⟩
  · intro h
    exact ⟨Node.layout_called (.reset h hcalls), Node.sameState_reset hcalls hcopy hdesign h⟩
  · intro r reading w w' beats hroot hend
    obtain ⟨m, host, hm, hreset⟩ := root_of_terminal hend
    have hmdesign : copy.design = r.root.design := by
      rw [hroot, Node.design_called hcalls, hdesign]
    apply run_eq_of_sameState
    · rw [hreset]
      exact Node.sameState_reset hm hcopy hmdesign host
    · exact ticks_tick r reading w
  · intro r h w' beats hroot
    apply run_eq_of_sameState
    · show Node.SameState ((r.root.cancel h).1.reset (r.root.cancel h).2).1 copy
      rw [hroot]
      exact Node.sameState_reset (.cancel h hcalls) hcopy hdesign _
    · rfl

/-- The tree was left in its pause, and a reset takes it back to where another one starts. -/
theorem pause_forgotten :
    Node.Called Unit (pausing 1) ((pausing 1).execute ⟨0, 0.0⟩ (World.start ())).next ∧
      Node.Unexecuted (pausing 4) ∧ (pausing 4).design = (pausing 1).design ∧
      ((((pausing 1).execute ⟨0, 0.0⟩ (World.start ())).next).reset ()).1.state =
        (pausing 4).state :=
  have hcalls := Node.Called.execute ⟨0, 0.0⟩ (World.start ()) (.refl (pausing 1))
  ⟨hcalls, unexecuted_pausing 4, rfl,
    ((runs_independent hcalls (unexecuted_pausing 4) rfl).2.1 ()).2⟩

end Runner

end BehaviorTree
