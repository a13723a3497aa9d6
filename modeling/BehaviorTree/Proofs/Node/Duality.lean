import BehaviorTree.Proofs.Control.Duality
import BehaviorTree.Proofs.Node.Watched

namespace BehaviorTree

/-!
# De Morgan's law for trees

A selector over some children and the inversion of a sequence over their inversions cannot be told
apart by calls.

* `Node.machine_inversion` — the inversion of a child does what the child does, with the answer
  inverted;
* `Node.machine_dual` — ticks, resets and cancellations of the two trees have the same answers and the
  same effects, and leave two such trees again;
* `Node.selector_dual_sequence` — the same for all sequences of calls, with what is delivered to each
  child.
-/

variable {β ι η : Type}

namespace Node

/-- A node that inverts the answers of a child. -/
def inversion (info : NodeInfo) (child : Node β) : Node β := .inner info .inverter [child]

/-- The second tree inverts the first. -/
def Inverts (n m : Node β) : Prop := ∃ info, m = inversion info n

/-- A selector over children that come with what their inversions carry. -/
def selection (info : NodeInfo) (cursor : Nat) (cs : List (NodeInfo × Node β)) : Node β :=
  .inner info (.selector cursor) (cs.map Prod.snd)

/-- The inversion of a sequence over the inversions of the children. -/
def dualSelection (info info' : NodeInfo) (cursor : Nat) (cs : List (NodeInfo × Node β)) : Node β :=
  inversion info (.inner info' (.sequence cursor) (cs.map fun c => inversion c.1 c.2))

/-- The first tree is a selector, and the second one says the same with a sequence. -/
inductive Dual : Node β → Node β → Prop
  | mk (info info₁ info₂ : NodeInfo) (cursor : Nat) {cs ds : List (Node β)} :
    List.Forall₂ Inverts cs ds →
      Dual (.inner info (.selector cursor) cs)
        (inversion info₁ (.inner info₂ (.sequence cursor) ds))

theorem dual_selection (info info₁ info₂ : NodeInfo) (cursor : Nat)
    (cs : List (NodeInfo × Node β)) :
    Dual (selection info cursor cs) (dualSelection info₁ info₂ cursor cs) := by
  refine .mk info info₁ info₂ cursor ?_
  rw [List.forall₂_map_left_iff, List.forall₂_map_right_iff, List.forall₂_same]
  exact fun c _ => ⟨c.1, rfl⟩

/-! ### Resets and cancellations -/

theorem broadcast_inversion {onLeaf : β → η → β × η} {onControl : Control → Control}
    (h : onControl .inverter = .inverter) (info : NodeInfo) (c : Node β) (host : η) :
    broadcast onLeaf onControl (inversion info c) host =
      (inversion info (broadcast onLeaf onControl c host).1,
        (broadcast onLeaf onControl c host).2) := by
  rw [inversion, broadcast_inner, h]
  rfl

theorem broadcast_inverts {onLeaf : β → η → β × η} {onControl : Control → Control}
    (h : onControl .inverter = .inverter) :
    Machine.Alike Inverts (broadcast onLeaf onControl) (broadcast onLeaf onControl) := by
  rintro c _ host ⟨info, rfl⟩
  rw [broadcast_inversion h]
  exact ⟨⟨info, rfl⟩, rfl⟩

/-- A broadcast that moves the cursor of a selector as that of a sequence leaves two such trees. -/
theorem broadcast_dual (move : Nat → Nat) {onLeaf : β → η → β × η}
    {onControl : Control → Control}
    (hselector : ∀ cursor, onControl (.selector cursor) = .selector (move cursor))
    (hsequence : ∀ cursor, onControl (.sequence cursor) = .sequence (move cursor))
    (hinverter : onControl .inverter = .inverter) :
    Machine.Alike Dual (broadcast onLeaf onControl) (broadcast onLeaf onControl) := by
  rintro _ _ h ⟨info, info₁, info₂, cursor, hcs⟩
  have hinverts : Machine.Alike Inverts (broadcast onLeaf onControl) (broadcast onLeaf onControl) :=
    broadcast_inverts hinverter
  obtain ⟨hnext, hhost⟩ := Machine.sweep_alike hcs (fun c _ => hinverts c) h
  rw [broadcast_inversion hinverter, broadcast_inner, broadcast_inner, hselector, hsequence]
  exact ⟨.mk info info₁ info₂ (move cursor) hnext, hhost⟩

/-! ### Ticks -/

variable [Behavior β η]

theorem execute_inversion (now : Moment) (info : NodeInfo) (c : Node β) (w : World η) :
    execute now (inversion info c) w = ((execute now c w).map (inversion info)).invert := by
  rw [inversion, execute_inner]
  rfl

/-- The inversion of a child answers the inverse, and does to the child what is done to it. -/
theorem machine_inversion : (machine : Machine (Node β) η).Simulation Inverts machine.inverted where
  tick now c d w := by
    rintro ⟨info, rfl⟩
    rw [Machine.tick_inverted]
    show (execute now c w).Match Inverts (execute now (inversion info c) w).invert
    rw [execute_inversion]
    exact ⟨(Status.invert_invert _).symm, ⟨info, rfl⟩, rfl⟩
  reset := broadcast_inverts rfl
  cancel := broadcast_inverts rfl

theorem execute_dual (now : Moment) {n m : Node β} (w : World η) (h : Dual n m) :
    (execute now n w).Match Dual (execute now m w) := by
  obtain @⟨info, info₁, info₂, cursor, cs, ds, hcs⟩ := h
  -- the selector's walk over the children is the one over their inversions, inverted
  have hwalk : (Ordered.tick machine .failure now cursor cs w).Match (Beside Inverts)
      (Ordered.tick machine .success now cursor ds w).invert := by
    rw [Outcome.match_iff, show Status.success = Status.invert .failure from rfl,
      ← Ordered.tick_inverted]
    exact Ordered.tick_corresponds machine_inversion.correspondence .failure now cursor hcs
      (World.match_eq_iff.2 rfl)
  rw [execute_inversion, execute_inner, execute_inner]
  refine ⟨hwalk.status, ?_, hwalk.world⟩
  simp only [Control.tick, Outcome.map, Outcome.next_invert, hwalk.next.1]
  exact .mk info info₁ info₂ _ hwalk.next.2

/-- Calls to the two trees have the same answers and the same effects, and leave two such trees. -/
theorem machine_dual : (machine : Machine (Node β) η).Simulation Dual machine where
  tick now _ _ w := execute_dual now w
  reset := broadcast_dual (fun _ => 0) (fun _ => rfl) (fun _ => rfl) rfl
  cancel := broadcast_dual (fun cursor => cursor) (fun _ => rfl) (fun _ => rfl) rfl

/-! ### Sequences of calls -/

theorem answers_dual (info info₁ info₂ : NodeInfo) (cursor : Nat) (cs : List (NodeInfo × Node β))
    (w : World η) (calls : List (Call × World.Change η)) :
    (selection info cursor cs).answers w calls =
      (dualSelection info₁ info₂ cursor cs).answers w calls :=
  machine_dual.answers_eq calls (dual_selection info info₁ info₂ cursor cs) w

/-- The same children, each watched under its place in the list. -/
def watchEach (cs : List (NodeInfo × Node β)) : List (NodeInfo × Node (Watched Nat β)) :=
  cs.zipIdx.map fun c => (c.1.1, watched c.2 c.1.2)

theorem unwatch_watchEach (cs : List (NodeInfo × Node β)) :
    (watchEach cs).map (fun c => (c.1, c.2.unwatched)) = cs := by
  simp [watchEach, Function.comp_def]

@[simp]
theorem unwatched_selection (info : NodeInfo) (cursor : Nat)
    (cs : List (NodeInfo × Node (Watched ι β))) :
    (selection info cursor cs).unwatched =
      selection info cursor (cs.map fun c => (c.1, c.2.unwatched)) := by
  simp [selection, Function.comp_def]

@[simp]
theorem unwatched_dualSelection (info info' : NodeInfo) (cursor : Nat)
    (cs : List (NodeInfo × Node (Watched ι β))) :
    (dualSelection info info' cursor cs).unwatched =
      dualSelection info info' cursor (cs.map fun c => (c.1, c.2.unwatched)) := by
  simp [dualSelection, inversion, Function.comp_def]

/-- De Morgan's law.  Over any children a selector, and the inversion of a sequence over the inversions
    of these children, answer alike to every sequence of calls, and leave the same worlds.  Every child
    gets the same calls, all of them in the same order: this is what the answers with notes say, and
    without the notes they are the answers of the two trees. -/
theorem selector_dual_sequence (info info₁ info₂ : NodeInfo) (cursor : Nat)
    (cs : List (NodeInfo × Node β)) (w : World η) (calls : List (Call × World.Change η)) :
    (selection info cursor cs).answers w calls =
      (dualSelection info₁ info₂ cursor cs).answers w calls ∧
    (selection info cursor (watchEach cs)).notedAnswers w calls =
      (dualSelection info₁ info₂ cursor (watchEach cs)).notedAnswers w calls ∧
    ((selection info cursor (watchEach cs)).notedAnswers w calls).map unnoted =
      (selection info cursor cs).answers w calls ∧
    ((dualSelection info₁ info₂ cursor (watchEach cs)).notedAnswers w calls).map unnoted =
      (dualSelection info₁ info₂ cursor cs).answers w calls := by
  refine ⟨answers_dual info info₁ info₂ cursor cs w calls,
    answers_dual info info₁ info₂ cursor (watchEach cs) _ _, ?_, ?_⟩
  · rw [answers_unwatched, unwatched_selection, unwatch_watchEach]
  · rw [answers_unwatched, unwatched_dualSelection, unwatch_watchEach]

end Node

end BehaviorTree
