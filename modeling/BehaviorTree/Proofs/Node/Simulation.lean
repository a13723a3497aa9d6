import BehaviorTree.Proofs.Control.Simulation
import BehaviorTree.Proofs.Node.Design
import BehaviorTree.Runner

namespace BehaviorTree

/-!
# Trees in one state

Two trees over the leaves of the library that agree in structure, names, settings and progress
cannot be told apart by calls, whatever their identities, parents, agents and properties are.

* `Node.SameState` — the two trees are in one state;
* `Node.sameState_placedUnder` — a tree does not change its state when it becomes a child;
* `Node.machine_simulation` — ticks, resets and cancellations keep them in one state, with the same
  answers and the same effects;
* `Node.executes_eq_of_sameState`, `Runner.run_eq_of_sameState` — all their runs are the same.
-/

variable {η : Type}

namespace Node

/-- The two trees agree in structure, names, settings and progress. -/
def SameState (n m : Node Builtin) : Prop := n.state = m.state

theorem forall₂_sameState_iff {cs ds : List (Node Builtin)} :
    List.Forall₂ SameState cs ds ↔ cs.map state = ds.map state :=
  forall₂_map_eq_iff

theorem SameState.symm {n m : Node Builtin} (h : SameState n m) : SameState m n := Eq.symm h

/-! ### The two trees side by side -/

theorem sameState_leaf {info info' : NodeInfo} (kind : LeafKind) (b : Builtin)
    (hname : info.name = info'.name) : SameState (leaf info kind b) (leaf info' kind b) := by
  unfold SameState
  rw [state_leaf, state_leaf, hname]

theorem sameState_inner {info info' : NodeInfo} (control : Control) {cs ds : List (Node Builtin)}
    (hname : info.name = info'.name) (hcs : List.Forall₂ SameState cs ds) :
    SameState (inner info control cs) (inner info' control ds) := by
  unfold SameState
  rw [state_inner, state_inner, hname, forall₂_sameState_iff.1 hcs]

theorem SameState.of_leaf {info : NodeInfo} {kind : LeafKind} {b : Builtin} {m : Node Builtin}
    (h : SameState (leaf info kind b) m) :
    ∃ info', m = leaf info' kind b ∧ info.name = info'.name := by
  unfold SameState at h
  cases m with
  | leaf info' kind' b' =>
    simp only [state_leaf, Rose.node.injEq, Prod.mk.injEq, Setup.leaf.injEq, Progress.leaf.injEq,
      and_true] at h
    obtain ⟨hname, ⟨rfl, hsettings⟩, hstarted⟩ := h
    obtain rfl := Builtin.eq_of_parts hsettings hstarted
    exact ⟨info', rfl, hname⟩
  | inner info' control ds => simp at h

theorem SameState.of_inner {info : NodeInfo} {control : Control} {cs : List (Node Builtin)}
    {m : Node Builtin} (h : SameState (inner info control cs) m) :
    ∃ info' ds, m = inner info' control ds ∧ info.name = info'.name ∧
      List.Forall₂ SameState cs ds := by
  unfold SameState at h
  cases m with
  | leaf info' kind b => simp at h
  | inner info' control' ds =>
    simp only [state_inner, Rose.node.injEq, Prod.mk.injEq, Setup.inner.injEq,
      Progress.inner.injEq] at h
    obtain ⟨⟨hname, hsettings, hprogress⟩, hcs⟩ := h
    obtain rfl := Control.eq_of_parts hsettings hprogress
    exact ⟨info', ds, rfl, hname, forall₂_sameState_iff.2 hcs⟩

theorem SameState.name_eq {n m : Node Builtin} (h : SameState n m) : n.name = m.name := by
  cases n with
  | leaf info kind b =>
    obtain ⟨info', rfl, hname⟩ := h.of_leaf
    exact hname
  | inner info control cs =>
    obtain ⟨info', ds, rfl, hname, -⟩ := h.of_inner
    exact hname

/-! ### Places of a tree -/

theorem state_setParent (parent : Option NodeId) (n : Node Builtin) :
    (n.setParent parent).state = n.state := by
  cases n with
  | leaf info kind b => simp only [setParent, withInfo, state_leaf]
  | inner info control cs => simp only [setParent, withInfo, state_inner]

theorem state_bindAgent (a : Agent) (n : Node Builtin) : (n.bindAgent a).state = n.state := by
  induction n with
  | leaf info kind b => rw [bindAgent, state_leaf, state_leaf]
  | inner info control cs ih =>
    have hchildren : (cs.map (bindAgent a)).map state = cs.map state := by
      rw [List.map_map]
      exact List.map_congr_left ih
    rw [bindAgent, bindAgentAll_eq_map, state_inner, state_inner, hchildren]

/-- A tree is in one state wherever it stands. -/
theorem sameState_placedUnder (parent n : Node Builtin) : SameState (parent.placedUnder n) n := by
  unfold SameState placedUnder
  dsimp only
  split
  · rw [state_bindAgent, state_setParent]
  · rw [state_setParent]

/-! ### Calls -/

/-- A broadcast that does not involve the host keeps two trees in one state. -/
theorem broadcast_alike {onLeaf : Builtin → η → Builtin × η} {g : Builtin → Builtin}
    (hleaf : ∀ b h, onLeaf b h = (g b, h)) (onControl : Control → Control) :
    Machine.Alike SameState (broadcast onLeaf onControl) (broadcast onLeaf onControl) := by
  intro n m h hnm
  induction n generalizing m h with
  | leaf info kind b =>
    obtain ⟨info', rfl, hname⟩ := hnm.of_leaf
    rw [broadcast_leaf, broadcast_leaf, hleaf]
    exact ⟨sameState_leaf kind (g b) hname, rfl⟩
  | inner info control cs ih =>
    obtain ⟨info', ds, rfl, hname, hcs⟩ := hnm.of_inner
    obtain ⟨hnext, hhost⟩ := Machine.sweep_alike hcs ih h
    rw [broadcast_inner, broadcast_inner]
    exact ⟨sameState_inner (onControl control) hname hnext, hhost⟩

theorem machineUpTo_simulation (levels : Nat) :
    (machineUpTo levels : Machine (Node Builtin) η).Simulation SameState (machineUpTo levels) := by
  have hreset : Machine.Alike SameState (reset : Node Builtin → η → Node Builtin × η) reset :=
    broadcast_alike (fun _ _ => rfl) Control.restart
  have hcancel : Machine.Alike SameState (cancel : Node Builtin → η → Node Builtin × η) cancel :=
    broadcast_alike (fun _ _ => rfl) Control.abandon
  induction levels with
  | zero => exact ⟨fun now n m w h => ⟨rfl, h, rfl⟩, hreset, hcancel⟩
  | succ levels ih =>
    refine ⟨?_, hreset, hcancel⟩
    intro now n m w h
    cases n with
    | leaf info kind b =>
      obtain ⟨info', rfl, hname⟩ := h.of_leaf
      exact ⟨rfl, sameState_leaf kind _ hname, rfl⟩
    | inner info control cs =>
      obtain ⟨info', ds, rfl, hname, hcs⟩ := h.of_inner
      have hcontrol := control.tick_match ih info.name now hcs w
      -- the name only goes into records, and it is the same on both sides
      simp only [machineUpTo, ← hname]
      refine ⟨hcontrol.status, ?_, hcontrol.world⟩
      simp only [Outcome.map, hcontrol.next.1]
      exact sameState_inner _ hname hcontrol.next.2

/-- Trees in one state answer every call alike, and are in one state afterwards. -/
theorem machine_simulation :
    (machine : Machine (Node Builtin) η).Simulation SameState machine where
  reset := (machineUpTo_simulation 0).reset
  cancel := (machineUpTo_simulation 0).cancel
  tick now n m w h := by
    show (execute now n w).Match SameState (execute now m w)
    rw [← tick_machineUpTo (Nat.le_max_left n.depth m.depth),
      ← tick_machineUpTo (Nat.le_max_right n.depth m.depth)]
    exact (machineUpTo_simulation _).tick now n m w h

theorem execute_match {n m : Node Builtin} (h : SameState n m) (now : Moment) (w : World η) :
    (n.execute now w).Match SameState (m.execute now w) :=
  machine_simulation.tick now n m w h

/-! ### Runs -/

/-- What a tree answers to ticks at moments, and the worlds that it leaves.  Before each tick the
    host changes the world as it likes. -/
def executes {β : Type} [Behavior β η] (n : Node β) (w : World η) :
    List (Moment × (World η → World η)) → List (Status × World η)
  | [] => []
  | (now, change) :: rest =>
    let o := n.execute now (change w)
    (o.status, o.world) :: o.next.executes o.world rest

theorem executes_eq_of_sameState {n m : Node Builtin} (h : SameState n m) (w : World η)
    (ticks : List (Moment × (World η → World η))) : n.executes w ticks = m.executes w ticks := by
  induction ticks generalizing n m w with
  | nil => rfl
  | cons tick rest ih =>
    have htick := execute_match h tick.1 (tick.2 w)
    have hrest := ih htick.next (m.execute tick.1 (tick.2 w)).world
    simp only [executes, htick.status, htick.world, hrest]

end Node

namespace Runner

open Node (SameState)

/-- What a runner answers to ticks at readings of the clock, and the worlds that it leaves.  Before
    each tick the host changes the world as it likes. -/
def run {β : Type} [Behavior β η] (r : Runner β) (w : World η) :
    List (Float × (World η → World η)) → List (Status × World η)
  | [] => []
  | (reading, change) :: rest =>
    let (r, w) := r.tick reading (change w)
    (r.last, w) :: r.run w rest

theorem tick_eq_of_sameState {r s : Runner Builtin} (hroot : SameState r.root s.root)
    (hticks : r.ticks = s.ticks) (reading : Float) (w : World η) :
    SameState (r.tick reading w).1.root (s.tick reading w).1.root ∧
      (r.tick reading w).1.ticks = (s.tick reading w).1.ticks ∧
      (r.tick reading w).1.last = (s.tick reading w).1.last ∧
      (r.tick reading w).2 = (s.tick reading w).2 := by
  have htick := Node.execute_match hroot ⟨s.ticks, reading⟩ w
  simp only [tick, hticks, htick.status, htick.world, htick.next.name_eq]
  split
  · -- the run ends, and both trees are reset
    obtain ⟨hreset, hhost⟩ := Node.machine_simulation.reset _ _
      (s.root.execute ⟨s.ticks, reading⟩ w).world.host htick.next
    refine ⟨hreset, rfl, rfl, ?_⟩
    exact congrArg (fun h => { (s.root.execute ⟨s.ticks, reading⟩ w).world.tell _ with host := h })
      hhost
  · exact ⟨htick.next, rfl, rfl, rfl⟩

theorem run_eq_of_sameState {r s : Runner Builtin} (hroot : SameState r.root s.root)
    (hticks : r.ticks = s.ticks) (w : World η) (beats : List (Float × (World η → World η))) :
    r.run w beats = s.run w beats := by
  induction beats generalizing r s w with
  | nil => rfl
  | cons beat rest ih =>
    obtain ⟨hroot', hticks', hlast, hworld⟩ :=
      tick_eq_of_sameState hroot hticks beat.1 (beat.2 w)
    have hrest := ih hroot' hticks' (s.tick beat.1 (beat.2 w)).2
    simp only [run, hlast, hworld, hrest]

end Runner

end BehaviorTree
