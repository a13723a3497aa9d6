import BehaviorTree.Proofs.Control.Ordered
import BehaviorTree.Proofs.Node.Cancellation
import BehaviorTree.Proofs.Node.Restart

namespace BehaviorTree

/-!
# Sequences and selectors resume their runs

What the children of a sequence or of a selector do from tick to tick is a matter of its cursor alone,
whatever they are.  Over the leaves of the library a child beyond the cursor has made no progress, not
even when runs were cancelled, which leaves the cursor where it was.

* `Node.abandoned_of_unstarted` — a cancellation does nothing to a tree without progress;
* `Node.FreshBeyond` — the children beyond the cursor have made no progress;
* `Node.FreshBeyond.of_reaches` — no calls to the node change that;
* `Node.composites_resume` — the runs of both kinds of nodes, over children of any kind, and the
  children beyond the cursor.
-/

variable {η : Type}

namespace Node

/-! ### Trees without progress -/

theorem Unstarted.cursorsAtStart {n : Node Builtin} (h : n.Unstarted) : n.CursorsAtStart := by
  intro m hm
  have hm := h m hm
  cases m with
  | leaf info kind b => rfl
  | inner info control cs =>
    have hcontrol : control.progress = control.settings.start.progress := Progress.inner.inj hm
    cases control with
    | sequence cursor | selector cursor => exact Control.Progress.cursor.inj hcontrol
    | parallel | inverter | repeater | retry | timeout | custom => rfl

theorem unstarted_restarted (n : Node Builtin) : n.restarted.Unstarted := reset_unstarted n ()

/-- A cancellation does nothing to a tree without progress. -/
theorem abandoned_of_unstarted {n : Node Builtin} (h : n.Unstarted) : n.abandoned = n := by
  have hreset : n.abandoned = n.restarted := (cancel_eq_reset_iff n () ()).2 h.cursorsAtStart
  rw [hreset, restarted_of_unstarted h]

/-! ### Children beyond the cursor -/

/-- A node with a cursor, beyond which no child has made any progress. -/
inductive FreshBeyond (control : Nat → Control) : Node Builtin → Prop
  | mk (info : NodeInfo) {cursor : Nat} {cs : List (Node Builtin)} :
    (∀ c ∈ cs.drop (cursor + 1), c.Unstarted) → FreshBeyond control (inner info (control cursor) cs)

section
variable {control : Nat → Control} {goOn : Status}

theorem FreshBeyond.restarted (hw : Control.Walks control goOn) {n : Node Builtin}
    (h : FreshBeyond control n) : FreshBeyond control n.restarted := by
  obtain ⟨info, -⟩ := h
  rw [restarted_inner, hw.restart]
  refine .mk info fun c hc => ?_
  obtain ⟨d, -, rfl⟩ := List.mem_map.1 (List.mem_of_mem_drop hc)
  exact unstarted_restarted d

theorem FreshBeyond.abandoned (hw : Control.Walks control goOn) {n : Node Builtin}
    (h : FreshBeyond control n) : FreshBeyond control n.abandoned := by
  obtain ⟨info, hcs⟩ := h
  rw [abandoned_inner, hw.abandon]
  refine .mk info fun c hc => ?_
  rw [← List.map_drop] at hc
  obtain ⟨d, hd, rfl⟩ := List.mem_map.1 hc
  rw [abandoned_of_unstarted (hcs d hd)]
  exact hcs d hd

/-- The cursor goes forward over children that were executed, and the end of a run resets them all. -/
theorem FreshBeyond.execute (hw : Control.Walks control goOn) {n : Node Builtin}
    (h : FreshBeyond control n) (now : Moment) (w : World η) :
    FreshBeyond control (n.execute now w).next := by
  obtain @⟨info, cursor, cs, hcs⟩ := h
  rw [execute_inner, hw.tick, Ordered.tick]
  split
  · -- the children beyond the new cursor are as they were, and were beyond the old one
    refine .mk info fun c hc => ?_
    simp only [Outcome.map, Ordered.drop_walk] at hc
    have hforward : cursor ≤ (Ordered.walk machine goOn now cursor cs w).next.1 :=
      Ordered.cursor_le_walk cursor cs w
    exact hcs c (List.drop_subset_drop_left cs (Nat.succ_le_succ hforward) hc)
  · rw [resetAll_machine]
    refine .mk info fun c hc => ?_
    obtain ⟨d, -, rfl⟩ := List.mem_map.1 (List.mem_of_mem_drop hc)
    exact unstarted_restarted d

/-- No ticks, resets and cancellations of the node change that. -/
theorem FreshBeyond.of_reaches (hw : Control.Walks control goOn) {n n' : Node Builtin}
    (h : FreshBeyond control n) (hreach : (machine : Machine (Node Builtin) η).Reaches n n') :
    FreshBeyond control n' := by
  induction hreach with
  | refl => exact h
  | tick now w _ ih => exact ih.execute hw now w
  | reset host _ ih =>
    show FreshBeyond control (reset _ host).1
    rw [reset_eq]
    exact ih.restarted hw
  | cancel host _ ih =>
    show FreshBeyond control (cancel _ host).1
    rw [cancel_eq]
    exact ih.abandoned hw

end

/-! ### Whole runs -/

/-- **Composites resume.**  On every tick of every sequence of ticks and resets from a reset state, a
    sequence goes on with the child that ran, executes the children in their order until one does not
    succeed, and answers what that child answered; a selector does so until one does not fail.  In every
    state that ticks, resets and cancellations of a tree without progress lead to, the children beyond
    its cursor have made no progress. -/
theorem composites_resume {control : Nat → Control} {goOn : Status}
    (hkind : control = .sequence ∧ goOn = .success ∨ control = .selector ∧ goOn = .failure) :
    (∀ {γ η : Type} (m : Machine γ η) (name : String) (cursor : Nat) (cs : List γ) (w : World η)
        (calls : List (Call × World.Change η)), (∀ call ∈ calls, call.1 ≠ .cancel) →
      let beats := (control cursor).restart.beats m name cs w calls
      beats.map Beat.call = calls.map Prod.fst ∧
        ∀ before b after, beats = before ++ b :: after → ∀ now, b.call = .execute now →
          Ordered.Lawful control goOn cs.length before.reverse b) ∧
    (∀ {η : Type} (info : NodeInfo) (cs : List (Node Builtin)) (n : Node Builtin),
      (inner info (control 0) cs).Unstarted →
      (machine : Machine (Node Builtin) η).Reaches (inner info (control 0) cs) n →
        FreshBeyond control n) := by
  have hw : Control.Walks control goOn := by
    obtain ⟨rfl, rfl⟩ | ⟨rfl, rfl⟩ := hkind
    · exact Control.walks_sequence
    · exact Control.walks_selector
  constructor
  · intro γ η m name cursor cs w calls hcalls
    exact ⟨Control.map_call_beats .., fun before b after hbeats now =>
      Ordered.beats_law hw m name cursor cs w hcalls hbeats⟩
  · intro η info cs n hstart hreach
    have hfresh : FreshBeyond control (inner info (control 0) cs) :=
      .mk info fun c hc => (unstarted_inner.1 hstart).2 c (List.mem_of_mem_drop hc)
    exact hfresh.of_reaches hw hreach

/-- Children that give the answers of a list, one on each tick, and go on with the list when they are
    reset. -/
def scripted : Machine (List Status) Unit where
  tick _ c w := ⟨c.headD .running, c.tail, w⟩
  reset c h := (c, h)
  cancel c h := (c, h)

/-- Two ticks with nothing between them. -/
def twoTicks : List (Call × World.Change Unit) :=
  [(.execute ⟨0, 0.0⟩, fun w => w), (.execute ⟨1, 0.1⟩, fun w => w)]

/-- Two pauses, of which the first one suffices. -/
def pauses : Node Builtin :=
  .inner { id := 1, name := "Selector" } (.selector 0)
    [.leaf { id := 2, name := "Action", parent := some 1 } .action (.wait 1.0 none),
      .leaf { id := 3, name := "Action", parent := some 1 } .action (.wait 2.0 none)]

/-- A sequence waits for its second child, and goes on from there to the third, whose failure ends the
    run.  A selector that is cancelled during its first pause has not begun the second. -/
theorem pausing_composites_resume :
    let first : Beat := ⟨.execute ⟨0, 0.0⟩, [.executed 0 .success, .executed 1 .running],
      some .running, .sequence 1⟩
    let second : Beat := ⟨.execute ⟨1, 0.1⟩, [.executed 1 .success, .executed 2 .failure,
      .reset 0, .reset 1, .reset 2], some .failure, .sequence 0⟩
    (Control.sequence 0).restart.beats scripted "patrol"
        [[.success], [.running, .success], [.failure]] (.start ()) twoTicks = [first, second] ∧
      Ordered.Lawful .sequence .success 3 [first] second ∧
      FreshBeyond .selector ((pauses.execute ⟨0, 0.0⟩ (World.start ())).next.cancel ()).1 := by
  intro first second
  have hbeats : (Control.sequence 0).restart.beats scripted "patrol"
      [[.success], [.running, .success], [.failure]] (.start ()) twoTicks = [first, second] := rfl
  have hstart : pauses.Unstarted := unstarted_inner.2 ⟨rfl, by simp [Builtin.startedAt]⟩
  obtain ⟨-, hlaw⟩ := (composites_resume (.inl ⟨rfl, rfl⟩)).1 scripted "patrol" 0
    [[.success], [.running, .success], [.failure]] (.start ()) twoTicks (by simp [twoTicks])
  have hfresh := (composites_resume (.inr ⟨rfl, rfl⟩)).2 _ _ _ hstart
    (.cancel () (.tick ⟨0, 0.0⟩ (World.start ()) .refl))
  exact ⟨hbeats, hlaw [first] second [] hbeats ⟨1, 0.1⟩ rfl, hfresh⟩

end Node

end BehaviorTree
