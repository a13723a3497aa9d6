import BehaviorTree.Leaf.Builtin
import BehaviorTree.Proofs.Node.Visits
import BehaviorTree.Runner

namespace BehaviorTree

/-!
# Resets and cancellations reach every leaf once

A reset of a tree is one reset of each of its leaves, in preorder, and a cancellation is one cancellation of
each.  It makes no difference how far the tree has come: nodes that have finished and nodes that were never
begun pass the call on like those that run.  To say which leaf a call reaches, every leaf is watched under
its place in the tree.

* `Node.watchLeaves`, `Node.leafPlaces` — a tree with its leaves watched, and the places of the leaves;
* `Node.visits_watchLeaves` — the watched leaves are the leaves of the tree, each under its place;
* `Node.marks_called` — no history of calls changes which leaves are watched, nor their order;
* `Node.notes_broadcast` — a broadcast that notes the call to a leaf notes it once for each leaf;
* `Runner.notes_reset` — a runner that is reset cancels every leaf, and then resets every leaf;
* `Node.broadcasts_reach_once` — these together, with what becomes of the leaves and of the host.
-/

variable {ι β η : Type}

namespace Node

/-! ### Watching every leaf -/

mutual

/-- The tree with every leaf watched under its place, when the nodes are counted in preorder from a number
    on. -/
def watchLeaves : Node β → Nat → Node (Watched Nat β)
  | .leaf info kind b, i => .leaf info kind ⟨i, .leaf info kind b⟩
  | .inner info control cs, i => .inner info control (watchLeavesAll cs (i + 1))

/-- Several trees, one after the other, with every leaf watched under its place. -/
def watchLeavesAll : List (Node β) → Nat → List (Node (Watched Nat β))
  | [], _ => []
  | c :: cs, i => watchLeaves c i :: watchLeavesAll cs (i + c.preorder.length)

end

/-- The places of the leaves of a tree in its preorder. -/
def leafPlaces (n : Node β) : List Nat := ((n.places 0).filter Visit.isLeaf).map Visit.place

theorem watchLeavesAll_eq_map (cs : List (Node β)) (i : Nat) :
    watchLeavesAll cs i = (numbered i cs).map fun c => watchLeaves c.2 c.1 := by
  induction cs generalizing i with
  | nil => simp [watchLeavesAll, numbered]
  | cons c cs ih => simp [watchLeavesAll, numbered, ih]

theorem snd_mem_of_mem_numbered {i : Nat} {cs : List (Node β)} {c : Nat × Node β}
    (h : c ∈ numbered i cs) : c.2 ∈ cs :=
  map_snd_numbered i cs ▸ List.mem_map_of_mem h

/-- A tree with its leaves watched is the tree itself without watching. -/
theorem unwatched_watchLeaves (n : Node β) (i : Nat) : (n.watchLeaves i).unwatched = n := by
  induction n generalizing i with
  | leaf info kind b => simp [watchLeaves]
  | inner info control cs ih =>
    have hchildren : (numbered (i + 1) cs).map (fun c => (watchLeaves c.2 c.1).unwatched) =
        (numbered (i + 1) cs).map Prod.snd :=
      List.map_congr_left fun c hc => ih c.2 (snd_mem_of_mem_numbered hc) c.1
    rw [watchLeaves, unwatched_inner, watchLeavesAll_eq_map, List.map_map]
    exact congrArg (inner info control) (hchildren.trans (map_snd_numbered (i + 1) cs))

theorem not_isLeaf_control (place : Nat) (control : Control) (info : NodeInfo) :
    ¬ Visit.isLeaf ⟨place, control.kind, info⟩ := by
  cases control <;> exact Bool.false_ne_true

/-- The watched leaves are the leaves of the tree in preorder, each under its place. -/
theorem visits_watchLeaves (n : Node β) (i : Nat) :
    (n.watchLeaves i).leaves.map (fun b => b.tree.visit b.mark) =
      (n.places i).filter Visit.isLeaf := by
  induction n generalizing i with
  | leaf info kind b =>
    rw [watchLeaves, leaves, places_leaf]
    cases kind <;> rfl
  | inner info control cs ih =>
    have hchildren : ∀ c ∈ numbered (i + 1) cs,
        (watchLeaves c.2 c.1).leaves.map (fun b => b.tree.visit b.mark) =
          (places c.1 c.2).filter Visit.isLeaf :=
      fun c hc => ih c.2 (snd_mem_of_mem_numbered hc) c.1
    -- the node itself is none of the leaves, so both sides are those of the children
    rw [places_inner, List.filter_cons_of_neg (not_isLeaf_control i control info), List.filter_flatMap,
      watchLeaves, leaves, leavesAll_eq_flatMap, watchLeavesAll_eq_map, List.flatMap_map,
      List.map_flatMap]
    exact List.flatMap_congr hchildren

theorem marks_watchLeaves (n : Node β) : (n.watchLeaves 0).marks = n.leafPlaces := by
  rw [leafPlaces, ← visits_watchLeaves, List.map_map]
  rfl

theorem leafPlaces_ascending (n : Node β) : n.leafPlaces.Pairwise (· < ·) := by
  have hsublist : n.leafPlaces.Sublist ((n.places 0).map Visit.place) :=
    List.filter_sublist.map Visit.place
  rw [map_place_places] at hsublist
  exact List.Pairwise.sublist hsublist List.pairwise_lt_range'

/-! ### What has no part in the marks -/

/-- The mark of a leaf. -/
def label : Node (Watched ι β) → Option ι
  | .leaf _ _ b => some b.mark
  | .inner .. => none

theorem marks_eq (n : Node (Watched ι β)) :
    n.marks = n.label.toList ++ (n.children.map marks).flatten := by
  cases n with
  | leaf info kind b => rfl
  | inner info control cs =>
    rw [marks, leaves, leavesAll_eq_flatMap, List.map_flatMap, List.flatMap_def]
    rfl

/-- Trees of one shape with the same marks on their leaves have the same marks in order. -/
theorem marks_of_view_eq {n m : Node (Watched ι β)} (h : n.view label = m.view label) :
    n.marks = m.marks := by
  refine of_view_eq (R := fun n m => n.marks = m.marks) ?_ h
  intro n m hroot hchildren
  rw [marks_eq n, marks_eq m, hroot, forall₂_map_eq_iff.1 hchildren]

variable [Behavior β η]

/-- The calls change no mark. -/
theorem steady_label : Steady (Noted (ι × Call) η) (label : Node (Watched ι β) → Option ι) where
  inner _ _ _ _ _ _ := rfl
  tick _ _ _ _ _ := rfl
  reset _ _ _ _ := rfl
  cancel _ _ _ _ := rfl

/-- Whatever calls a tree and its parts get, the same leaves are watched in the same order. -/
theorem marks_called {n m : Node (Watched ι β)} (h : Called (Noted (ι × Call) η) n m) :
    m.marks = n.marks :=
  marks_of_view_eq (steady_label.view_called h)

/-! ### What is delivered -/

omit [Behavior β η] in
/-- A broadcast that notes the call to a leaf notes it once for each leaf, in preorder. -/
theorem notes_broadcast
    {onLeaf : Watched ι β → Noted (ι × Call) η → Watched ι β × Noted (ι × Call) η}
    {onControl : Control → Control} {call : Call}
    (hleaf : ∀ b h, (onLeaf b h).2.notes = h.notes ++ [(b.mark, call)])
    (n : Node (Watched ι β)) (h : Noted (ι × Call) η) :
    (broadcast onLeaf onControl n h).2.notes = h.notes ++ n.marks.map (·, call) := by
  rw [(leaves_broadcast onLeaf onControl n h).2, Machine.notes_sweep hleaf, marks, List.map_map]
  rfl

theorem notes_reset (n : Node (Watched ι β)) (h : Noted (ι × Call) η) :
    (n.reset h).2.notes = h.notes ++ n.marks.map (·, .reset) :=
  notes_broadcast (fun _ _ => rfl) n h

theorem notes_cancel (n : Node (Watched ι β)) (h : Noted (ι × Call) η) :
    (n.cancel h).2.notes = h.notes ++ n.marks.map (·, .cancel) :=
  notes_broadcast (fun _ _ => rfl) n h

/-- The leaves of a tree and the host after a reset are those after one reset of each leaf. -/
theorem leaves_reset (n : Node β) (h : η) :
    ((n.reset h).1.leaves, (n.reset h).2) = Machine.sweep Behavior.reset n.leaves h :=
  Prod.ext_iff.2 (leaves_broadcast Behavior.reset Control.restart n h)

theorem leaves_cancel (n : Node β) (h : η) :
    ((n.cancel h).1.leaves, (n.cancel h).2) = Machine.sweep Behavior.cancel n.leaves h :=
  Prod.ext_iff.2 (leaves_broadcast Behavior.cancel Control.abandon n h)

end Node

namespace Runner

variable [Behavior β η]

/-- A runner that is reset cancels every leaf before it resets the first one. -/
theorem notes_reset (r : Runner (Watched ι β)) (h : Noted (ι × Call) η) :
    (r.reset h).2.notes =
      h.notes ++ r.root.marks.map (·, .cancel) ++ r.root.marks.map (·, .reset) := by
  have hmarks : (r.root.cancel h).1.marks = r.root.marks :=
    Node.marks_called (.cancel h (.refl r.root))
  show ((r.root.cancel h).1.reset (r.root.cancel h).2).2.notes = _
  rw [Node.notes_reset, Node.notes_cancel, hmarks]

/-- So it does to the leaves and to the host what two sweeps over the leaves do. -/
theorem leaves_reset (r : Runner β) (h : η) :
    ((r.reset h).1.root.leaves, (r.reset h).2) =
      let (leaves, h) := Machine.sweep Behavior.cancel r.root.leaves h
      Machine.sweep Behavior.reset leaves h := by
  rw [← Node.leaves_cancel]
  exact Node.leaves_reset (r.root.cancel h).1 (r.root.cancel h).2

end Runner

/-- A reset and a cancellation are broadcasts that reach every leaf exactly once.  Watch the leaves of a tree
    in any state, each under its place, and let any calls reach the tree or its parts.  Then a reset delivers
    one reset to each leaf, a cancellation one cancellation, and a reset of a runner a cancellation to each
    leaf and after all of these a reset to each leaf, every time in preorder; no leaf gets any other call.
    The watched leaves are those of the tree, and watching changes nothing.  What becomes of the leaves and
    of the host, whatever the leaves do, is what one sweep over the leaves makes of them, or two in the case
    of a runner. -/
theorem Node.broadcasts_reach_once [Behavior β η] :
    (∀ (n : Node β) (r : Runner (Watched Nat β)),
      Called (Noted (Nat × Call) η) (n.watchLeaves 0) r.root → ∀ h : Noted (Nat × Call) η,
        (r.root.reset h).2.notes = h.notes ++ n.leafPlaces.map (·, .reset) ∧
        (r.root.cancel h).2.notes = h.notes ++ n.leafPlaces.map (·, .cancel) ∧
        (r.reset h).2.notes =
          h.notes ++ n.leafPlaces.map (·, .cancel) ++ n.leafPlaces.map (·, .reset)) ∧
    (∀ (n : Node β) (h : Noted (Nat × Call) η),
      (n.watchLeaves 0).leaves.map (fun b => b.tree.visit b.mark) =
        (n.places 0).filter Visit.isLeaf ∧
      n.leafPlaces.Pairwise (· < ·) ∧
      ((n.watchLeaves 0).reset h).map unwatched Noted.host = n.reset h.host ∧
      ((n.watchLeaves 0).cancel h).map unwatched Noted.host = n.cancel h.host) ∧
    ∀ (r : Runner β) (h : η),
      ((r.root.reset h).1.leaves, (r.root.reset h).2) =
        Machine.sweep Behavior.reset r.root.leaves h ∧
      ((r.root.cancel h).1.leaves, (r.root.cancel h).2) =
        Machine.sweep Behavior.cancel r.root.leaves h ∧
      ((r.reset h).1.root.leaves, (r.reset h).2) =
        let (leaves, h) := Machine.sweep Behavior.cancel r.root.leaves h
        Machine.sweep Behavior.reset leaves h := by
  refine ⟨?_, ?_, fun r h => ⟨leaves_reset r.root h, leaves_cancel r.root h, r.leaves_reset h⟩⟩
  · intro n r hcalled h
    have hmarks : r.root.marks = n.leafPlaces := (marks_called hcalled).trans (marks_watchLeaves n)
    rw [notes_reset, notes_cancel, Runner.notes_reset, hmarks]
    exact ⟨rfl, rfl, rfl⟩
  · intro n h
    have hn : Unwatches (n.watchLeaves 0) n := unwatched_watchLeaves n 0
    exact ⟨visits_watchLeaves n 0, leafPlaces_ascending n,
      Prod.ext_iff.2 (reset_unwatched _ n h h.host hn rfl),
      Prod.ext_iff.2 (cancel_unwatched _ n h h.host hn rfl)⟩

/-- A tree with inner nodes of all seven kinds.  On its first tick one leaf finishes, one pauses, one is not
    reached, and a failure is to be retried. -/
def Node.watchRound : Node Builtin :=
  .inner { id := 1, name := "Parallel" } (.parallel .fresh)
    [.inner { id := 2, name := "Sequence", parent := some 1 } (.sequence 0)
      [.leaf { id := 3, name := "Action", parent := some 2 } .action (.log "ready" .info),
        .inner { id := 4, name := "Timeout", parent := some 2 } (.timeout {} none)
          [.leaf { id := 5, name := "Action", parent := some 4 } .action (.wait 9.0 none)],
        .leaf { id := 6, name := "Action", parent := some 2 } .action (.log "done" .info)],
      .inner { id := 7, name := "Retry", parent := some 1 } (.retry {} {})
        [.inner { id := 8, name := "Inverter", parent := some 7 } .inverter
          [.leaf { id := 9, name := "Action", parent := some 8 } .action (.constant .success)]],
      .inner { id := 10, name := "Repeat", parent := some 1 } (.repeater {} 0)
        [.inner { id := 11, name := "Selector", parent := some 10 } (.selector 0)
          [.leaf { id := 12, name := "Condition", parent := some 11 } .condition (.hasValue (some "alarm")),
            .leaf { id := 13, name := "Action", parent := some 11 } .action (.constant .success)]]]

/-- After its first tick all six leaves are reset, or cancelled, or first cancelled and then reset. -/
theorem Node.watchRound_broadcasts :
    let h : Noted (Nat × Call) Unit := ⟨(), []⟩
    let m := ((watchRound.watchLeaves 0).execute ⟨0, 0.0⟩ (World.start h)).next
    let places := [2, 4, 5, 8, 11, 12]
    Called (Noted (Nat × Call) Unit) (watchRound.watchLeaves 0) m ∧
      (m.reset h).2.notes = places.map (·, .reset) ∧
      (m.cancel h).2.notes = places.map (·, .cancel) ∧
      (Runner.reset ⟨m, 1, .running⟩ h).2.notes =
        places.map (·, .cancel) ++ places.map (·, .reset) := by
  intro h m places
  have hcalled : Called (Noted (Nat × Call) Unit) (watchRound.watchLeaves 0) m :=
    .execute ⟨0, 0.0⟩ (World.start h) (.refl _)
  have hplaces : watchRound.leafPlaces = places := rfl
  -- from here on it does not matter what the tick made of the tree
  clear_value m
  have hnotes := broadcasts_reach_once.1 watchRound ⟨m, 1, .running⟩ hcalled h
  rw [hplaces] at hnotes
  exact ⟨hcalled, hnotes⟩

end BehaviorTree
