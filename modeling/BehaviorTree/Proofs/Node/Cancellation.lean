import BehaviorTree.Proofs.Node.Simulation

namespace BehaviorTree

/-!
# What a cancellation leaves

A cancellation returns every node of a tree to its start, except that the sequences and selectors
keep their cursors.  It abandons a run completely exactly when no cursor has moved.

* `Node.state_cancel` — the state after a cancellation, node by node;
* `Node.cancel_eq_reset_iff` — a cancellation is a reset exactly when all cursors are at the start;
* `Node.execute_expired` — a timeout node whose limit has passed does what its cancellation does;
* `Node.cancel_abandons_all_but_cursors` — these together, with what they say about later runs;
* `Node.cursor_survives` — a sequence that was cancelled in its second child goes on from there.
-/

variable {η : Type}

namespace Node

/-- The cursor of the root of a tree; a node without one stands at its first child. -/
def cursor {β : Type} : Node β → Nat
  | .leaf .. => 0
  | .inner _ control _ => control.cursor

/-- No cursor of the tree has moved. -/
def CursorsAtStart {β : Type} (n : Node β) : Prop := ∀ m ∈ n.preorder, m.cursor = 0

/-- Progress with its cursor elsewhere; progress without a cursor stays as it is. -/
def Progress.withCursor (cursor : Nat) : Progress → Progress
  | .inner (.cursor _) => .inner (.cursor cursor)
  | progress => progress

@[simp]
theorem cursorsAtStart_leaf {β : Type} {info : NodeInfo} {kind : LeafKind} {b : β} :
    (leaf info kind b).CursorsAtStart := by
  simp [CursorsAtStart, preorder, cursor]

@[simp]
theorem cursorsAtStart_inner {β : Type} {info : NodeInfo} {control : Control}
    {cs : List (Node β)} :
    (inner info control cs).CursorsAtStart ↔
      control.cursor = 0 ∧ ∀ c ∈ cs, c.CursorsAtStart := by
  simp only [CursorsAtStart, preorder, preorderAll_eq_flatMap, List.forall_mem_cons,
    List.forall_mem_flatMap, cursor]

/-- After a cancellation every node is at its start, except for its cursor. -/
theorem state_cancel (n : Node Builtin) (h : η) :
    (n.cancel h).1.state =
      n.view fun m => (m.name, m.setup, m.setup.start.withCursor m.cursor) := by
  apply view_broadcast
  · intro info kind b h
    show (info.name, Setup.leaf kind b.restart.settings, Progress.leaf b.restart.startedAt) =
      (info.name, Setup.leaf kind b.settings, Progress.leaf b.settings.start.startedAt)
    rw [Builtin.settings_restart, Builtin.startedAt_restart, Builtin.startedAt_start]
  · intro info control cs ds
    show (info.name, Setup.inner control.abandon.settings, Progress.inner control.abandon.progress) =
      (info.name, Setup.inner control.settings,
        (Progress.inner control.settings.start.progress).withCursor control.cursor)
    rw [Control.settings_abandon]
    cases control <;> rfl

/-- A cancellation returns a tree to its start exactly when no cursor has moved. -/
theorem cancel_eq_reset_iff (n : Node Builtin) (h h' : η) :
    (n.cancel h).1 = (n.reset h').1 ↔ n.CursorsAtStart := by
  unfold cancel reset
  induction n generalizing h h' with
  | leaf info kind b =>
    rw [broadcast_leaf, broadcast_leaf]
    exact iff_of_true rfl cursorsAtStart_leaf
  | inner info control cs ih =>
    rw [broadcast_inner, broadcast_inner, cursorsAtStart_inner, Node.inner.injEq,
      Control.abandon_eq_restart_iff]
    simp only [true_and]
    apply and_congr_right
    intro _
    -- the two sweeps may pass the host's state on differently, so it stays open on both sides
    induction cs generalizing h h' with
    | nil => simp
    | cons c cs ihcs =>
      rw [Machine.sweep_cons, Machine.sweep_cons, List.cons.injEq, List.forall_mem_cons,
        ih c List.mem_cons_self]
      apply and_congr_right
      intro _
      exact ihcs (fun d hd => ih d (List.mem_cons_of_mem c hd)) _ _

/-- A timeout node whose limit has passed answers from its settings, and is left as a cancellation
    leaves it. -/
theorem execute_expired {β : Type} [Behavior β η] {info : NodeInfo} {s : Timeout}
    {startedAt : Option Float} {cs : List (Node β)} {now : Moment} {w : World η}
    (h : s.limit ≤ now.elapsed (startedAt.getD now.now)) :
    (execute now (inner info (.timeout s startedAt) cs) w).next =
      ((inner info (.timeout s startedAt) cs).cancel w.host).1 := by
  rw [execute_inner, cancel, broadcast_inner]
  simp only [Control.tick, Timeout.tick, Outcome.map, if_pos h]
  rfl

/-- A cancellation keeps the design of a tree and the cursors of its nodes, and abandons all other
    progress.  It is a reset exactly when no cursor has moved, and then all later runs are those after
    a reset.  A timeout node whose limit has passed is left as a cancellation leaves it. -/
theorem cancel_abandons_all_but_cursors :
    (∀ (n : Node Builtin) (h : η),
      (n.cancel h).1.layout = n.layout ∧
      ((n.cancel h).1.state =
        n.view fun m => (m.name, m.setup, m.setup.start.withCursor m.cursor)) ∧
      ((n.cancel h).1 = (n.reset h).1 ↔ n.CursorsAtStart) ∧
      (n.CursorsAtStart → ∀ (w : World η) (ticks : List (Moment × (World η → World η))),
        (n.cancel h).1.executes w ticks = (n.reset h).1.executes w ticks)) ∧
    (∀ (info : NodeInfo) (s : Timeout) (startedAt : Option Float) (cs : List (Node Builtin))
        (now : Moment) (w : World η),
      s.limit ≤ now.elapsed (startedAt.getD now.now) →
        (execute now (inner info (.timeout s startedAt) cs) w).next =
          ((inner info (.timeout s startedAt) cs).cancel w.host).1) := by
  refine ⟨?_, fun info s startedAt cs now w h => execute_expired h⟩
  intro n h
  refine ⟨layout_cancel n h, state_cancel n h, cancel_eq_reset_iff n h h, ?_⟩
  intro hcursors w ticks
  rw [(cancel_eq_reset_iff n h h).2 hcursors]

/-- A pause of nine seconds below a timeout of five, both begun at time zero. -/
def timedPause : Node Builtin :=
  .inner { id := 1, name := "Timeout" } (.timeout {} (some 0.0))
    [.leaf { id := 2, name := "Action", parent := some 1 } .action (.wait 9.0 (some 0.0))]

/-- When the timeout expires no cursor has moved, and the next run starts anew. -/
theorem timedPause_restarts :
    timedPause.CursorsAtStart ∧ (5.0 : Float) ≤ (⟨3, 6.0⟩ : Moment).elapsed 0.0 ∧
      ∀ ticks : List (Moment × (World Unit → World Unit)),
        (timedPause.execute ⟨3, 6.0⟩ (World.start ())).next.executes (World.start ()) ticks =
          (timedPause.reset ()).1.executes (World.start ()) ticks := by
  have hcursors : timedPause.CursorsAtStart := by simp [timedPause, Control.cursor]
  have hexpired : (5.0 : Float) ≤ (⟨3, 6.0⟩ : Moment).elapsed 0.0 := by decide
  refine ⟨hcursors, hexpired, ?_⟩
  intro ticks
  have hnext : (timedPause.execute ⟨3, 6.0⟩ (World.start ())).next = (timedPause.cancel ()).1 :=
    cancel_abandons_all_but_cursors.2 _ {} (some 0.0) _ ⟨3, 6.0⟩ (World.start ()) hexpired
  rw [hnext]
  exact (cancel_abandons_all_but_cursors.1 timedPause ()).2.2.2 hcursors (World.start ()) ticks

/-- A sequence that is cancelled in its second child goes on from there: its first child does not
    report again, as it does after a reset. -/
theorem cursor_survives :
    ∃ n n' : Node Builtin, Unexecuted n ∧ Called Unit n n' ∧
      ∃ (w : World Unit) (ticks : List (Moment × (World Unit → World Unit))),
        (n'.cancel ()).1.executes w ticks ≠ (n'.reset ()).1.executes w ticks := by
  refine ⟨pausing 1, _, unexecuted_pausing 1, .execute ⟨0, 0.0⟩ (World.start ()) (.refl _),
    World.start (), [(⟨1, 0.5⟩, fun w => w)], ?_⟩
  intro h
  have hevents := congrArg (List.map fun answer => answer.2.events.length) h
  exact absurd hevents (by decide)

end Node

end BehaviorTree
