import BehaviorTree.Node.Edit
import BehaviorTree.Proofs.Control.Noted
import BehaviorTree.Proofs.Node.Calls
import BehaviorTree.Proofs.Node.View

namespace BehaviorTree

/-!
# Watched parts of a tree

A tree that stands in a leaf of another one carries a mark there, and every call that is delivered to it
is noted with that mark.  Watching changes nothing:

* `Node.unwatched` — the tree with the watched trees in the places of their leaves;
* `Node.notedAnswers` — what a watching tree answers to calls, with the notes;
* `Node.answers_unwatched` — without the notes these are the answers of the tree that does not watch.
-/

/-- A tree in the place of a leaf, with a mark that tells its calls from those of others. -/
structure Watched (ι β : Type) where
  mark : ι
  tree : Node β

variable {ι β η : Type}

/-- Each tick, reset and cancellation of a watched tree is noted as it is delivered. -/
instance [Behavior β η] : Behavior (Watched ι β) (Noted (ι × Call) η) where
  tick now _ b w :=
    (Noted.liftTick (Node.execute now) b.tree (w.note (b.mark, .execute now))).map (⟨b.mark, ·⟩)
  reset b h :=
    (Noted.lift Node.reset b.tree { h with notes := h.notes ++ [(b.mark, .reset)] }).map
      (⟨b.mark, ·⟩) id
  cancel b h :=
    (Noted.lift Node.cancel b.tree { h with notes := h.notes ++ [(b.mark, .cancel)] }).map
      (⟨b.mark, ·⟩) id
  configure key value b h :=
    (Noted.lift (Node.setProperty key value) b.tree h).map (⟨b.mark, ·⟩) id

/-- A host's change of its world, which leaves the notes as they are. -/
def World.Change.lift {α : Type} (change : World.Change η) : World.Change (Noted α η) :=
  fun w => (change w.plain).withNotes w.notes

namespace Node

/-- A leaf in which a tree is watched. -/
def watched (mark : ι) (n : Node β) : Node (Watched ι β) := .leaf n.info .action ⟨mark, n⟩

mutual

/-- The tree with every watched tree in the place of its leaf. -/
def unwatched : Node (Watched ι β) → Node β
  | .leaf _ _ b => b.tree
  | .inner info control cs => .inner info control (unwatchedAll cs)

/-- Several trees with every watched tree in the place of its leaf. -/
def unwatchedAll : List (Node (Watched ι β)) → List (Node β)
  | [] => []
  | c :: cs => unwatched c :: unwatchedAll cs

end

theorem unwatchedAll_eq_map (cs : List (Node (Watched ι β))) :
    unwatchedAll cs = cs.map unwatched := by
  induction cs with
  | nil => simp [unwatchedAll]
  | cons c cs ih => simp [unwatchedAll, ih]

@[simp]
theorem unwatched_leaf (info : NodeInfo) (kind : LeafKind) (b : Watched ι β) :
    unwatched (.leaf info kind b) = b.tree := by
  simp [unwatched]

@[simp]
theorem unwatched_inner (info : NodeInfo) (control : Control) (cs : List (Node (Watched ι β))) :
    unwatched (.inner info control cs) = .inner info control (cs.map unwatched) := by
  simp [unwatched, unwatchedAll_eq_map]

@[simp]
theorem unwatched_watched (mark : ι) (n : Node β) : (watched mark n).unwatched = n := by
  simp [watched]

theorem depthAll_le {cs : List (Node β)} {levels : Nat} (h : ∀ c ∈ cs, c.depth ≤ levels) :
    depthAll cs ≤ levels := by
  induction cs with
  | nil => simp
  | cons c cs ih =>
    obtain ⟨hc, hcs⟩ := List.forall_mem_cons.1 h
    rw [depthAll_cons]
    exact Nat.max_le.2 ⟨hc, ih hcs⟩

/-! ### Watching changes nothing -/

/-- The second tree is the first one without watching. -/
def Unwatches (n : Node (Watched ι β)) (m : Node β) : Prop := n.unwatched = m

theorem forall₂_unwatches_iff {cs : List (Node (Watched ι β))} {ds : List (Node β)} :
    List.Forall₂ Unwatches cs ds ↔ cs.map unwatched = ds := by
  rw [← List.forall₂_eq_eq_eq, List.forall₂_map_left_iff]
  rfl

theorem broadcast_unwatched {onWatched : Watched ι β → Noted (ι × Call) η → Watched ι β × Noted (ι × Call) η}
    {onLeaf : β → η → β × η} {onControl : Control → Control}
    (hleaf : ∀ b h, (onWatched b h).1.tree = (broadcast onLeaf onControl b.tree h.host).1 ∧
      (onWatched b h).2.host = (broadcast onLeaf onControl b.tree h.host).2) :
    Machine.Paired Unwatches Noted.Over (broadcast onWatched onControl)
      (broadcast onLeaf onControl) := by
  intro n m h h' hnm hh
  obtain rfl := hnm
  obtain rfl := hh
  induction n generalizing h with
  | leaf info kind b => simpa [Unwatches, Noted.Over] using hleaf b h
  | inner info control cs ih =>
    have hcs : List.Forall₂ Unwatches cs (cs.map unwatched) := forall₂_unwatches_iff.2 rfl
    have hsweep := Machine.sweep_paired (S := Noted.Over) hcs
      (f := broadcast onWatched onControl) (g := broadcast onLeaf onControl)
      (by rintro c hc d h h' rfl rfl; exact ih c hc h) (h := h) rfl
    rw [unwatched_inner, broadcast_inner, broadcast_inner]
    refine ⟨?_, hsweep.2⟩
    rw [Unwatches, unwatched_inner, forall₂_unwatches_iff.1 hsweep.1]

variable [Behavior β η]

theorem reset_unwatched : Machine.Paired (Unwatches (ι := ι) (β := β))
    (Noted.Over (α := ι × Call) (η := η)) reset reset :=
  broadcast_unwatched fun _ _ => ⟨rfl, rfl⟩

theorem cancel_unwatched : Machine.Paired (Unwatches (ι := ι) (β := β))
    (Noted.Over (α := ι × Call) (η := η)) cancel cancel :=
  broadcast_unwatched fun _ _ => ⟨rfl, rfl⟩

/-- `Unwatches` for watching trees of at most so many levels.  The watched trees have levels of their
    own, so those of the second tree are not bounded. -/
def UnwatchesUpTo (levels : Nat) (n : Node (Watched ι β)) (m : Node β) : Prop :=
  n.depth ≤ levels ∧ Unwatches n m

theorem UnwatchesUpTo.children {levels : Nat} {cs : List (Node (Watched ι β))}
    (h : depthAll cs ≤ levels) : List.Forall₂ (UnwatchesUpTo levels) cs (cs.map unwatched) := by
  rw [List.forall₂_map_right_iff, List.forall₂_same]
  exact fun c hc => ⟨Nat.le_trans (depth_le_depthAll hc) h, rfl⟩

theorem UnwatchesUpTo.inner {levels : Nat} {cs : List (Node (Watched ι β))} {ds : List (Node β)}
    (h : List.Forall₂ (UnwatchesUpTo levels) cs ds) (info : NodeInfo) (control : Control) :
    UnwatchesUpTo (levels + 1) (.inner info control cs) (.inner info control ds) := by
  obtain ⟨hlevels, hcs⟩ := (List.forall₂_and_left cs ds).1 h
  refine ⟨?_, ?_⟩
  · rw [depth]
    exact Nat.succ_le_succ (depthAll_le hlevels)
  · rw [Unwatches, unwatched_inner, forall₂_unwatches_iff.1 hcs]

theorem machineUpTo_unwatched (levels : Nat) :
    (machineUpTo levels : Machine (Node (Watched ι β)) (Noted (ι × Call) η)).Correspondence
      (UnwatchesUpTo levels) Noted.Over machine := by
  -- a reset and a cancellation keep the number of levels
  have hreset (levels : Nat) :=
    (reset_unwatched (ι := ι) (β := β) (η := η)).restrict (p := fun n => n.depth ≤ levels)
      fun n h hn => by rwa [depth_reset]
  have hcancel (levels : Nat) :=
    (cancel_unwatched (ι := ι) (β := β) (η := η)).restrict (p := fun n => n.depth ≤ levels)
      fun n h hn => by rwa [depth_cancel]
  induction levels with
  | zero =>
    refine ⟨?_, hreset 0, hcancel 0⟩
    intro now n m w v h hw
    have hlevels := h.1
    cases n with
    | leaf | inner => simp [depth] at hlevels
  | succ levels ih =>
    refine ⟨?_, hreset _, hcancel _⟩
    intro now n m w v h hw
    obtain ⟨hlevels, rfl⟩ := h
    obtain rfl := World.match_over_iff.1 hw
    cases n with
    | leaf info kind b =>
      exact ⟨rfl, ⟨hlevels, unwatched_leaf info kind _⟩, World.match_over_iff.2 rfl⟩
    | inner info control cs =>
      have hcs : List.Forall₂ (UnwatchesUpTo levels) cs (cs.map unwatched) :=
        UnwatchesUpTo.children (Nat.le_of_succ_le_succ hlevels)
      have htick := control.tick_corresponds ih info.name now hcs hw
      show Outcome.Corresponds _ _ _ (execute now (unwatched (.inner info control cs)) w.plain)
      rw [unwatched_inner, execute_inner]
      refine ⟨htick.status, ?_, htick.world⟩
      simp only [machineUpTo, Outcome.map, ← htick.next.1]
      exact .inner htick.next.2 info _

/-- Trees tick, reset and cancel as they do without watching. -/
theorem machine_unwatched :
    (machine : Machine (Node (Watched ι β)) (Noted (ι × Call) η)).Correspondence
      Unwatches Noted.Over machine where
  reset := reset_unwatched
  cancel := cancel_unwatched
  tick now {n m w v} hnm hw := by
    have htick := (machineUpTo_unwatched n.depth).tick now ⟨Nat.le_refl _, hnm⟩ hw
    exact ⟨htick.status, htick.next.2, htick.world⟩

/-- The answer to a call and the world after it, without the notes. -/
def unnoted (a : Option Status × World (Noted (ι × Call) η)) : Option Status × World η :=
  (a.1, a.2.plain)

/-- What a watching tree answers to calls, and the worlds that it leaves, with the notes since the first
    call. -/
def notedAnswers (n : Node (Watched ι β)) (w : World η) (calls : List (Call × World.Change η)) :
    List (Option Status × World (Noted (ι × Call) η)) :=
  n.answers (w.withNotes []) (calls.map fun call => (call.1, call.2.lift))

/-- A tree answers as it does without watching, and leaves the same worlds but for the notes. -/
theorem answers_unwatched (n : Node (Watched ι β)) (w : World η)
    (calls : List (Call × World.Change η)) :
    (n.notedAnswers w calls).map unnoted = n.unwatched.answers w calls := by
  have hcalls : List.Forall₂ (Machine.CallsMatch (Noted.Over (α := ι × Call)))
      (calls.map fun call => (call.1, call.2.lift)) calls := by
    rw [List.forall₂_map_left_iff, List.forall₂_same]
    refine fun call _ => ⟨rfl, ?_⟩
    intro w v hw
    obtain rfl := World.match_over_iff.1 hw
    exact World.match_over_iff.2 rfl
  have hanswers := machine_unwatched.answers hcalls (c := n) rfl
    (World.match_over_iff.2 (World.plain_withNotes [] w))
  rw [← List.forall₂_eq_eq_eq, List.forall₂_map_left_iff]
  apply hanswers.imp
  rintro ⟨answer, w⟩ ⟨_, v⟩ ⟨rfl, hw⟩
  exact Prod.ext rfl (World.match_over_iff.1 hw)

end Node

end BehaviorTree
