import BehaviorTree.Node.Execute
import BehaviorTree.Proofs.Control.Reach

namespace BehaviorTree

/-!
# Views of a tree that calls do not change

`Node.view f` keeps the shape of a tree and at each node what `f` shows of it.  `Node.Called` says
that a tree came from another by calls: ticks, resets and cancellations of its root or of any node
below, with any moments and worlds.

* `Node.induct` — induction over trees, with the induction hypothesis for every child;
* `Node.of_view_eq` — induction over two trees with the same view, with their children side by side;
* `Node.Steady` — a view that shows of an inner node its settings only, and of a leaf nothing that its
  behaviour changes;
* `Node.Steady.view_called` — no history of calls changes a steady view.
-/

/-- A tree of values. -/
inductive Rose (α : Type) where
  | node (value : α) (children : List (Rose α))

namespace Machine

variable {α γ η : Type}

theorem ReachesAll.map_eq {m : Machine γ η} {v : γ → α}
    (hv : ∀ {c d}, m.Reaches c d → v d = v c) {cs ds : List γ} (h : m.ReachesAll cs ds) :
    ds.map v = cs.map v := by
  induction h with
  | nil => rfl
  | cons hcd _ ih => rw [List.map_cons, List.map_cons, hv hcd, ih]

end Machine

namespace Node

variable {α β η : Type}

/-! ### Induction and views -/

/-- What holds of every leaf, and of every inner node of whose children it holds, holds of every
    tree. -/
@[elab_as_elim, induction_eliminator]
theorem induct {motive : Node β → Prop}
    (leaf : ∀ info kind b, motive (.leaf info kind b))
    (inner : ∀ info control cs, (∀ c ∈ cs, motive c) → motive (.inner info control cs)) :
    ∀ n, motive n
  | .leaf info kind b => leaf info kind b
  | .inner info control cs => inner info control cs fun c _ => induct leaf inner c

mutual

/-- The tree of what `f` shows of each node. -/
def view (f : Node β → α) : Node β → Rose α
  | .leaf info kind b => .node (f (.leaf info kind b)) []
  | .inner info control cs => .node (f (.inner info control cs)) (viewAll f cs)

/-- The trees of what `f` shows of each node of several trees. -/
def viewAll (f : Node β → α) : List (Node β) → List (Rose α)
  | [] => []
  | c :: cs => view f c :: viewAll f cs

end

theorem viewAll_eq_map (f : Node β → α) (cs : List (Node β)) : viewAll f cs = cs.map (view f) := by
  induction cs with
  | nil => simp [viewAll]
  | cons c cs ih => simp [viewAll, ih]

@[simp]
theorem view_leaf (f : Node β → α) (info : NodeInfo) (kind : LeafKind) (b : β) :
    view f (.leaf info kind b) = .node (f (.leaf info kind b)) [] := by
  simp [view]

@[simp]
theorem view_inner (f : Node β → α) (info : NodeInfo) (control : Control) (cs : List (Node β)) :
    view f (.inner info control cs) = .node (f (.inner info control cs)) (cs.map (view f)) := by
  simp [view, viewAll_eq_map]

theorem preorder_eq (n : Node β) : n.preorder = n :: preorderAll n.children := by
  cases n <;> simp [preorder, children, preorderAll]

theorem view_eq (f : Node β → α) (n : Node β) : n.view f = .node (f n) (n.children.map (view f)) := by
  cases n with
  | leaf info kind b => exact view_leaf f info kind b
  | inner info control cs => exact view_inner f info control cs

/-- A view tells what `f` shows of the root. -/
theorem root_of_view_eq {f : Node β → α} {n m : Node β} (h : n.view f = m.view f) : f n = f m := by
  rw [view_eq f n, view_eq f m] at h
  exact (Rose.node.inj h).1

theorem forall₂_map_eq_iff {γ δ : Type} {g : γ → δ} {cs ds : List γ} :
    List.Forall₂ (fun c d => g c = g d) cs ds ↔ cs.map g = ds.map g := by
  rw [← List.forall₂_eq_eq_eq, List.forall₂_map_left_iff, List.forall₂_map_right_iff]

/-- What holds of two nodes of which `f` shows the same, if it holds of their children side by side, holds
    of two trees with the same view. -/
theorem of_view_eq {f : Node β → α} {R : Node β → Node β → Prop}
    (hstep : ∀ {n m}, f n = f m → List.Forall₂ R n.children m.children → R n m)
    {n m : Node β} (h : n.view f = m.view f) : R n m := by
  have of_children : ∀ {n m : Node β}, n.view f = m.view f →
      (∀ c ∈ n.children, ∀ d : Node β, c.view f = d.view f → R c d) → R n m := by
    intro n m h hchildren
    rw [view_eq f n, view_eq f m] at h
    obtain ⟨hroot, hviews⟩ := Rose.node.inj h
    have hboth := (List.forall₂_and_left _ _).2 ⟨hchildren, forall₂_map_eq_iff.2 hviews⟩
    exact hstep hroot (hboth.imp fun c d hcd => hcd.1 d hcd.2)
  induction n generalizing m with
  | leaf info kind b => exact of_children h nofun
  | inner info control cs ih => exact of_children h fun c hc d hcd => ih c hc hcd

/-- Trees with the same view have the same view of whatever is determined by what `f` shows. -/
theorem view_eq_of_view_eq {γ : Type} {f : Node β → α} {g : Node β → γ}
    (hfg : ∀ {n m}, f n = f m → g n = g m) {n m : Node β} (h : n.view f = m.view f) :
    n.view g = m.view g := by
  refine of_view_eq (R := fun n m => n.view g = m.view g) ?_ h
  intro n m hroot hchildren
  rw [view_eq g n, view_eq g m, hfg hroot, forall₂_map_eq_iff.1 hchildren]

/-- A view tells what `f` shows of the nodes in preorder. -/
theorem map_preorder_of_view_eq {f : Node β → α} {n m : Node β} (h : n.view f = m.view f) :
    n.preorder.map f = m.preorder.map f := by
  refine of_view_eq (R := fun n m => n.preorder.map f = m.preorder.map f) ?_ h
  intro n m hroot hchildren
  rw [preorder_eq, preorder_eq m, List.map_cons, List.map_cons, hroot, preorderAll_eq_flatMap,
    preorderAll_eq_flatMap, List.map_flatMap, List.map_flatMap, List.flatMap_def, List.flatMap_def,
    forall₂_map_eq_iff.1 hchildren]

/-- Two views are the same if they show the same of every node of the tree. -/
theorem view_congr {f g : Node β → α} {n : Node β} (h : ∀ m ∈ n.preorder, f m = g m) :
    n.view f = n.view g := by
  induction n with
  | leaf info kind b => rw [view_leaf, view_leaf, h _ (by simp [preorder])]
  | inner info control cs ih =>
    rw [preorder, preorderAll_eq_flatMap, List.forall_mem_cons, List.forall_mem_flatMap] at h
    have hchildren : cs.map (view f) = cs.map (view g) :=
      List.map_congr_left fun c hc => ih c hc (h.2 c hc)
    rw [view_inner, view_inner, h.1, hchildren]

/-- What `f` shows of a tree after a broadcast is what `g` shows of it before, if so at each node. -/
theorem view_broadcast {f g : Node β → α} {onLeaf : β → η → β × η} {onControl : Control → Control}
    (hleaf : ∀ info kind b h, f (.leaf info kind (onLeaf b h).1) = g (.leaf info kind b))
    (hinner : ∀ info control cs ds, f (.inner info (onControl control) ds) = g (.inner info control cs))
    (n : Node β) (h : η) : (broadcast onLeaf onControl n h).1.view f = n.view g := by
  induction n generalizing h with
  | leaf info kind b => rw [broadcast_leaf, view_leaf, view_leaf, hleaf]
  | inner info control cs ih =>
    rw [broadcast_inner, view_inner, view_inner, Machine.map_sweep ih, hinner]

/-! ### Histories of calls -/

/-- The second tree comes from the first by calls to its nodes.  A call to a node below the root
    changes the tree in the place of that node. -/
inductive Called (η : Type) [Behavior β η] : Node β → Node β → Prop
  | refl (n : Node β) : Called η n n
  | execute {n m : Node β} (now : Moment) (w : World η) :
    Called η n m → Called η n (m.execute now w).next
  | reset {n m : Node β} (h : η) : Called η n m → Called η n (m.reset h).1
  | cancel {n m : Node β} (h : η) : Called η n m → Called η n (m.cancel h).1
  | inside {n c d : Node β} {info : NodeInfo} {control : Control} {before after : List (Node β)} :
    Called η n (.inner info control (before ++ c :: after)) → Called η c d →
      Called η n (.inner info control (before ++ d :: after))

/-- A view of the root of a tree that shows of an inner node neither progress nor children, and of a
    leaf nothing that a tick, a reset or a cancellation changes. -/
structure Steady (η : Type) [Behavior β η] (f : Node β → α) : Prop where
  inner : ∀ info (c d : Control) cs ds, c.settings = d.settings →
    f (.inner info c cs) = f (.inner info d ds)
  tick : ∀ now info kind b (w : World η),
    f (.leaf info kind (Behavior.tick now info.agent b w).next) = f (.leaf info kind b)
  reset : ∀ info kind b (h : η), f (.leaf info kind (Behavior.reset b h).1) = f (.leaf info kind b)
  cancel : ∀ info kind b (h : η),
    f (.leaf info kind (Behavior.cancel b h).1) = f (.leaf info kind b)

namespace Steady

variable [Behavior β η] {f : Node β → α}

theorem view_reset (s : Steady η f) (n : Node β) (h : η) : (n.reset h).1.view f = n.view f :=
  view_broadcast s.reset
    (fun info control cs ds => s.inner info _ control ds cs control.settings_restart) n h

theorem view_cancel (s : Steady η f) (n : Node β) (h : η) : (n.cancel h).1.view f = n.view f :=
  view_broadcast s.cancel
    (fun info control cs ds => s.inner info _ control ds cs control.settings_abandon) n h

theorem view_tick (s : Steady η f) (levels : Nat) (now : Moment) (n : Node β) (w : World η) :
    ((machineUpTo levels).tick now n w).next.view f = n.view f := by
  induction levels generalizing now n w with
  | zero => rfl
  | succ levels ih =>
    cases n with
    | leaf info kind b =>
      show view f (.leaf info kind (Behavior.tick now info.agent b w).next) = _
      rw [view_leaf, view_leaf, s.tick]
    | inner info control cs =>
      -- whatever the control did to its children was a tick, a reset or a cancellation
      have hkept : ∀ {c d : Node β}, (machineUpTo levels : Machine (Node β) η).Reaches c d →
          d.view f = c.view f := by
        intro c d hcd
        apply hcd.preserves ih
        · intro c h
          rw [reset_machineUpTo, s.view_reset]
        · intro c h
          rw [cancel_machineUpTo, s.view_cancel]
      have hcs := (control.tick_reaches (m := machineUpTo levels) info.name now cs w).map_eq hkept
      have hsettings := control.settings_tick (m := machineUpTo levels) info.name now cs w
      simp only [machineUpTo, Outcome.map, view_inner, hcs]
      rw [s.inner info _ control _ cs hsettings]

theorem view_execute (s : Steady η f) (now : Moment) (n : Node β) (w : World η) :
    (n.execute now w).next.view f = n.view f :=
  s.view_tick n.depth now n w

/-- No history of calls changes a steady view. -/
theorem view_called (s : Steady η f) {n n' : Node β} (h : Called η n n') :
    n'.view f = n.view f := by
  induction h with
  | refl n => rfl
  | execute now w _ ih => rw [s.view_execute, ih]
  | reset h _ ih => rw [s.view_reset, ih]
  | cancel h _ ih => rw [s.view_cancel, ih]
  | @inside n c d info control before after _ _ ihn ihc =>
    rw [← ihn]
    simp only [view_inner, List.map_append, List.map_cons, ihc]
    rw [s.inner info control control _ (before ++ c :: after) rfl]

end Steady

end Node

end BehaviorTree
