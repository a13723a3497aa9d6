import BehaviorTree.Proofs.Control.Order
import BehaviorTree.Proofs.Node.Watched

namespace BehaviorTree

/-!
# One tick visits each node at most once

A tick of a tree is followed node by node: the host notes every node at the moment at which it is
executed.  The notes are some of the nodes of the tree, each at most once and in preorder.

* `Visit`, `Node.places` — a node as it is noted, and all nodes of a tree as they would be noted;
* `Node.followed` — a tick of a tree with its notes;
* `Node.followed_unnoted` — without the notes this is `Node.execute`;
* `Node.notes_followed` — the notes are a sublist of the places of the tree;
* `Node.execute_visits_once` — these together, with what they say of the leaves.
-/

/-- A node that is executed: its place in the preorder of the tree, its kind and what it carries. -/
structure Visit where
  place : Nat
  kind : Kind
  info : NodeInfo

/-- The node is a leaf. -/
def Visit.isLeaf (v : Visit) : Bool := v.kind = .action ∨ v.kind = .condition

variable {β η : Type}

namespace Node

/-! ### Places -/

/-- The node as it is noted at a place. -/
def visit (place : Nat) (n : Node β) : Visit := ⟨place, n.kind, n.info⟩

/-- The nodes of a tree in preorder, with the places from `i` on. -/
def places (i : Nat) (n : Node β) : List Visit := (n.preorder.zipIdx i).map fun m => m.1.visit m.2

/-- Trees side by side, each with its place when they are counted in preorder from `i` on. -/
def numbered : Nat → List (Node β) → List (Nat × Node β)
  | _, [] => []
  | i, c :: cs => (i, c) :: numbered (i + c.preorder.length) cs

@[simp]
theorem map_snd_numbered (i : Nat) (cs : List (Node β)) : (numbered i cs).map Prod.snd = cs := by
  induction cs generalizing i with
  | nil => rfl
  | cons c cs ih => rw [numbered, List.map_cons, ih]

theorem places_leaf (i : Nat) (info : NodeInfo) (kind : LeafKind) (b : β) :
    places i (.leaf info kind b) = [⟨i, kind.kind, info⟩] := by
  simp [places, preorder, visit, Node.kind, Node.info]

theorem places_inner (i : Nat) (info : NodeInfo) (control : Control) (cs : List (Node β)) :
    places i (.inner info control cs) =
      ⟨i, control.kind, info⟩ :: (numbered (i + 1) cs).flatMap fun c => places c.1 c.2 := by
  have hrest (i : Nat) : ((preorderAll cs).zipIdx i).map (fun m => m.1.visit m.2) =
      (numbered i cs).flatMap fun c => places c.1 c.2 := by
    induction cs generalizing i with
    | nil => simp [preorderAll, numbered]
    | cons c cs ih =>
      rw [preorderAll, List.zipIdx_append, List.map_append, ih, numbered, List.flatMap_cons, places]
  rw [places, preorder, List.zipIdx_cons, List.map_cons, hrest]
  rfl

/-- Only the kinds of the nodes, what they carry, and their order matter. -/
theorem places_eq (i : Nat) (n : Node β) :
    places i n =
      ((n.preorder.map fun m => (m.kind, m.info)).zipIdx i).map fun m => ⟨m.2, m.1.1, m.1.2⟩ := by
  rw [places, List.zipIdx_map, List.map_map]
  rfl

/-- A reset and a cancellation leave every node in its place. -/
theorem places_broadcast {onLeaf : β → η → β × η} {onControl : Control → Control}
    (hkind : ∀ control, (onControl control).kind = control.kind) (i : Nat) (n : Node β) (h : η) :
    places i (broadcast onLeaf onControl n h).1 = places i n := by
  have hview : (broadcast onLeaf onControl n h).1.view (fun m => (m.kind, m.info)) =
      n.view fun m => (m.kind, m.info) := by
    refine view_broadcast (fun info kind b h => rfl) (fun info control cs ds => ?_) n h
    exact congrArg (·, info) (hkind control)
  rw [places_eq, places_eq, map_preorder_of_view_eq hview]

theorem map_place_places (i : Nat) (n : Node β) :
    (places i n).map Visit.place = List.range' i n.preorder.length := by
  rw [places, List.map_map]
  exact List.zipIdx_map_snd i n.preorder

/-! ### Following a tick -/

/-- An action on a tree that leaves its place. -/
def inPlace (f : Node β → η → Node β × η) (c : Nat × Node β) (h : η) : (Nat × Node β) × η :=
  ((c.1, (f c.2 h).1), (f c.2 h).2)

/-- A tree with its place, and the tree. -/
def Holds (c : Nat × Node β) (n : Node β) : Prop := c.2 = n

theorem forall₂_holds_iff {cs : List (Nat × Node β)} {ds : List (Node β)} :
    List.Forall₂ Holds cs ds ↔ cs.map Prod.snd = ds := by
  rw [← List.forall₂_eq_eq_eq, List.forall₂_map_left_iff]
  rfl

theorem inPlace_paired (f : Node β → η → Node β × η) :
    Machine.Paired Holds (Noted.Over (α := Visit)) (Noted.lift (inPlace f)) f := by
  rintro c _ h _ rfl rfl
  exact ⟨rfl, rfl⟩

theorem places_inPlace {onLeaf : β → η → β × η} {onControl : Control → Control}
    (hkind : ∀ control, (onControl control).kind = control.kind) (c : Nat × Node β)
    (h : Noted Visit η) :
    let r := Noted.lift (inPlace (broadcast onLeaf onControl)) c h
    r.2.notes = h.notes ∧ places r.1.1 r.1.2 = places c.1 c.2 :=
  ⟨rfl, places_broadcast hkind c.1 c.2 h.host⟩

section

variable [Behavior β η]

/-- Trees of at most so many levels as children, each with its place.  Every node is noted when it is
    executed, before it does anything. -/
def followerUpTo : Nat → Machine (Nat × Node β) (Noted Visit η)
  | 0 => ⟨fun _ c w => ⟨.running, c, w⟩, Noted.lift (inPlace reset), Noted.lift (inPlace cancel)⟩
  | levels + 1 =>
    { tick := fun now c w =>
        let w := w.note (c.2.visit c.1)
        match c.2 with
        | .leaf info kind b =>
          (Noted.liftTick (Behavior.tick now info.agent) b w).map fun b => (c.1, .leaf info kind b)
        | .inner info control cs =>
          (control.tick (followerUpTo levels) info.name now (numbered (c.1 + 1) cs) w).map
            fun r => (c.1, .inner info r.1 (r.2.map Prod.snd))
      reset := Noted.lift (inPlace reset)
      cancel := Noted.lift (inPlace cancel) }

/-- A tick of a tree, with a note of every node that is executed. -/
def followed (now : Moment) (n : Node β) (w : World η) : Outcome (Node β) (Noted Visit η) :=
  ((followerUpTo n.depth).tick now (0, n) (w.withNotes [])).map Prod.snd

/-! ### Without the notes -/

/-- Following a tick changes nothing but the notes. -/
theorem followerUpTo_unnoted (levels : Nat) :
    (followerUpTo levels : Machine (Nat × Node β) (Noted Visit η)).Correspondence Holds Noted.Over
      (machineUpTo levels) := by
  induction levels with
  | zero => exact ⟨fun now {c d w v} hcd hw => ⟨rfl, hcd, hw⟩, inPlace_paired _, inPlace_paired _⟩
  | succ levels ih =>
    refine ⟨?_, inPlace_paired _, inPlace_paired _⟩
    rintro now ⟨i, n⟩ _ w v rfl hw
    obtain rfl := World.match_over_iff.1 hw
    cases n with
    | leaf info kind b => exact ⟨rfl, rfl, World.match_over_iff.2 rfl⟩
    | inner info control cs =>
      have hcs : List.Forall₂ Holds (numbered (i + 1) cs) cs :=
        forall₂_holds_iff.2 (map_snd_numbered (i + 1) cs)
      have htick := control.tick_corresponds ih info.name now hcs
        (World.match_over_iff.2 (World.plain_note (visit i (.inner info control cs)) w))
      refine ⟨htick.status, ?_, htick.world⟩
      simp only [followerUpTo, machineUpTo, Outcome.map, Holds, htick.next.1,
        forall₂_holds_iff.1 htick.next.2]

/-- Without its notes a tick that is followed is a tick of the tree. -/
theorem followed_unnoted (now : Moment) (n : Node β) (w : World η) :
    (followed now n w).status = (n.execute now w).status ∧
      (followed now n w).next = (n.execute now w).next ∧
      (followed now n w).world.plain = (n.execute now w).world := by
  have htick := (followerUpTo_unnoted n.depth).tick now (c := (0, n)) rfl
    (World.match_over_iff.2 (World.plain_withNotes [] w))
  exact ⟨htick.status, htick.next, World.match_over_iff.1 htick.world⟩

/-! ### The order of the notes -/

/-- During a tick of a tree at a place some of its nodes are noted, each at most once and in preorder. -/
theorem followerUpTo_orderly (levels : Nat) :
    (followerUpTo levels : Machine (Nat × Node β) (Noted Visit η)).Orderly Noted.notes
      fun c => places c.1 c.2 := by
  induction levels with
  | zero =>
    exact ⟨fun now c w => ⟨[], by simp [followerUpTo], List.nil_sublist _⟩,
      places_inPlace Control.kind_restart, places_inPlace Control.kind_abandon⟩
  | succ levels ih =>
    refine ⟨?_, places_inPlace Control.kind_restart, places_inPlace Control.kind_abandon⟩
    rintro now ⟨i, n⟩ w
    cases n with
    | leaf info kind b =>
      refine ⟨[⟨i, kind.kind, info⟩], rfl, ?_⟩
      rw [places_leaf]
    | inner info control cs =>
      -- the node itself is noted first, and then whatever is noted of its children
      obtain ⟨new, hseen, hnew⟩ := control.tick_orderly ih info.name now (numbered (i + 1) cs)
        (w.note (visit i (.inner info control cs)))
      refine ⟨visit i (.inner info control cs) :: new, ?_, ?_⟩
      · rw [List.append_cons]
        exact hseen
      · rw [places_inner]
        exact hnew.cons_cons _

/-- The notes of a tick are nodes of the tree, each at most once and in preorder. -/
theorem notes_followed (now : Moment) (n : Node β) (w : World η) :
    (followed now n w).world.notes.Sublist (n.places 0) := by
  obtain ⟨new, hseen, hnew⟩ := (followerUpTo_orderly n.depth).tick now (0, n) (w.withNotes [])
  have hnotes : (followed now n w).world.notes = new := hseen
  rwa [hnotes]

end

/-! ### The leaves that are ticked -/

variable {ι : Type}

/-- The marks of the watched trees that were ticked, in the order of the ticks. -/
def ticked (h : Noted (ι × Call) η) : List ι :=
  h.notes.filterMap fun note =>
    match note.2 with
    | .execute _ => some note.1
    | .reset | .cancel => none

/-- The marks of the leaves of a tree, from left to right. -/
def marks (n : Node (Watched ι β)) : List ι := n.leaves.map Watched.mark

theorem ticked_broadcast {onLeaf : Watched ι β → Noted (ι × Call) η → _}
    {onControl : Control → Control}
    (hleaf : ∀ b h, ticked (onLeaf b h).2 = ticked h ∧ (onLeaf b h).1.mark = b.mark)
    (n : Node (Watched ι β)) (h : Noted (ι × Call) η) :
    ticked (broadcast onLeaf onControl n h).2 = ticked h ∧
      (broadcast onLeaf onControl n h).1.marks = n.marks := by
  obtain ⟨hleaves, hhost⟩ := leaves_broadcast onLeaf onControl n h
  have hquiet : ∀ b h, ticked (onLeaf b h).2 = ticked h ++ [] := fun b h => by
    rw [(hleaf b h).1, List.append_nil]
  have hseen := Machine.seen_sweep hquiet n.leaves h
  rw [List.flatMap_eq_nil_iff.2 fun _ _ => rfl, List.append_nil] at hseen
  rw [marks, marks, hleaves, hhost]
  exact ⟨hseen, Machine.map_sweep (fun b _ h => (hleaf b h).2) h⟩

variable [Behavior β η]

/-- During a tick of a tree with watched leaves some of them are ticked, each at most once and from left
    to right. -/
theorem machineUpTo_orderly (levels : Nat) :
    (machineUpTo levels : Machine (Node (Watched ι β)) (Noted (ι × Call) η)).Orderly ticked
      marks := by
  have hreset (n : Node (Watched ι β)) (h : Noted (ι × Call) η) :
      ticked (n.reset h).2 = ticked h ∧ (n.reset h).1.marks = n.marks :=
    ticked_broadcast (fun b h => ⟨by simp [ticked, Behavior.reset], rfl⟩) n h
  have hcancel (n : Node (Watched ι β)) (h : Noted (ι × Call) η) :
      ticked (n.cancel h).2 = ticked h ∧ (n.cancel h).1.marks = n.marks :=
    ticked_broadcast (fun b h => ⟨by simp [ticked, Behavior.cancel], rfl⟩) n h
  induction levels with
  | zero =>
    exact ⟨fun now n w => ⟨[], by simp [machineUpTo], List.nil_sublist _⟩, hreset, hcancel⟩
  | succ levels ih =>
    refine ⟨?_, hreset, hcancel⟩
    intro now n w
    cases n with
    | leaf info kind b =>
      refine ⟨[b.mark], ?_, by simp [marks, leaves]⟩
      simp [machineUpTo, Outcome.map, ticked, Behavior.tick, Noted.liftTick, World.withNotes,
        World.notes, World.note]
    | inner info control cs =>
      obtain ⟨new, hseen, hnew⟩ := control.tick_orderly ih info.name now cs w
      refine ⟨new, hseen, ?_⟩
      rwa [marks, leaves, leavesAll_eq_flatMap, List.map_flatMap]

/-- One tick of a tree advances every node at most once, in preorder.  Followed node by node, a tick of
    the root is the same tick, and the nodes that it executes are some of the nodes of the tree, with
    strictly increasing places, and so are the leaves among them.  If the leaves carry marks, the marks
    of those that are ticked are noted in the order in which they stand in the tree, each at most
    once. -/
theorem execute_visits_once (now : Moment) :
    (∀ (n : Node β) (w : World η),
      ((followed now n w).status = (n.execute now w).status ∧
        (followed now n w).next = (n.execute now w).next ∧
        (followed now n w).world.plain = (n.execute now w).world) ∧
      (followed now n w).world.notes.Sublist (n.places 0) ∧
      (followed now n w).world.notes.Pairwise (·.place < ·.place) ∧
      ((followed now n w).world.notes.filter Visit.isLeaf).Pairwise (·.place < ·.place)) ∧
    (∀ (n : Node (Watched ι β)) (w : World (Noted (ι × Call) η)),
      ∃ new, ticked (n.execute now w).world.host = ticked w.host ++ new ∧ new.Sublist n.marks) := by
  constructor
  · intro n w
    have hnotes := notes_followed now n w
    have hplaces : (n.places 0).Pairwise (·.place < ·.place) := by
      rw [← List.pairwise_map (f := Visit.place), map_place_places]
      exact List.pairwise_lt_range'
    have hincreasing := hplaces.sublist hnotes
    exact ⟨followed_unnoted now n w, hnotes, hincreasing, hincreasing.filter _⟩
  · intro n w
    exact (machineUpTo_orderly n.depth).tick now n w

end Node

end BehaviorTree
