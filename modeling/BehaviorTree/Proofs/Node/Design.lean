import BehaviorTree.Node.Edit
import BehaviorTree.Proofs.Control.Settings
import BehaviorTree.Proofs.Leaf.Settings
import BehaviorTree.Proofs.Node.View
import Mathlib.Data.List.TakeDrop

namespace BehaviorTree

/-!
# Design and progress of a tree

A tree over the leaves of the library is a design and the progress of every node.  The design is the
structure with names, properties and settings; identities, parents and agents are not part of it.

* `Node.layout_called`, `Node.design_called` — no history of calls changes a tree in anything but its
  progress;
* `Node.Unexecuted` — the tree was built and edited, and no node of it was ever called;
* `Node.Unexecuted.unstarted` — then no node has made any progress;
* `Node.reset_unstarted` — neither has any node after a reset;
* `Node.state_eq_of_design_eq` — two trees without progress and with one design are in one state.
-/

namespace Node

variable {η : Type}

/-! ### What the root is and how far it has come -/

/-- What a node was told to do. -/
inductive Setup where
  | leaf (kind : LeafKind) (settings : Builtin.Settings)
  | inner (settings : Control.Settings)

/-- How far a node has come. -/
inductive Progress where
  | leaf (startedAt : Option Float)
  | inner (progress : Control.Progress)

/-- What the root of a tree was told to do. -/
def setup : Node Builtin → Setup
  | .leaf _ kind b => .leaf kind b.settings
  | .inner _ control _ => .inner control.settings

/-- How far the root of a tree has come. -/
def progress : Node Builtin → Progress
  | .leaf _ _ b => .leaf b.startedAt
  | .inner _ control _ => .inner control.progress

/-- The progress of a node that was never ticked. -/
def Setup.start : Setup → Progress
  | .leaf _ settings => .leaf settings.start.startedAt
  | .inner settings => .inner settings.start.progress

/-! ### Views of a whole tree -/

/-- Everything about a tree except its progress. -/
def layout (n : Node Builtin) : Rose (NodeInfo × Setup) := n.view fun m => (m.info, m.setup)

/-- The structure of a tree with names, properties and settings. -/
def design (n : Node Builtin) : Rose (String × Dict PropertyValue × Setup) :=
  n.view fun m => (m.name, m.properties, m.setup)

/-- The structure of a tree with names, settings and progress. -/
def state (n : Node Builtin) : Rose (String × Setup × Progress) :=
  n.view fun m => (m.name, m.setup, m.progress)

@[simp]
theorem state_leaf (info : NodeInfo) (kind : LeafKind) (b : Builtin) :
    state (leaf info kind b) = .node (info.name, .leaf kind b.settings, .leaf b.startedAt) [] :=
  view_leaf _ info kind b

@[simp]
theorem state_inner (info : NodeInfo) (control : Control) (cs : List (Node Builtin)) :
    state (inner info control cs) =
      .node (info.name, .inner control.settings, .inner control.progress) (cs.map state) :=
  view_inner _ info control cs

/-- No node of the tree has made any progress. -/
def Unstarted (n : Node Builtin) : Prop := ∀ m ∈ n.preorder, m.progress = m.setup.start

/-- What the information about a root and its settings determine is a steady view. -/
theorem steady_of_setup {α : Type} (f : NodeInfo → Setup → α) :
    Steady η fun n : Node Builtin => f n.info n.setup where
  inner info c d cs ds h := by simp only [Node.info, setup, h]
  tick now info kind b w := by
    show f info (.leaf kind (b.tick now w).next.settings) = f info (.leaf kind b.settings)
    rw [Builtin.settings_tick]
  reset info kind b h := by
    show f info (.leaf kind b.restart.settings) = f info (.leaf kind b.settings)
    rw [Builtin.settings_restart]
  cancel info kind b h := by
    show f info (.leaf kind b.restart.settings) = f info (.leaf kind b.settings)
    rw [Builtin.settings_restart]

/-- No history of calls changes anything about a tree except its progress. -/
theorem layout_called {n n' : Node Builtin} (h : Called η n n') : n'.layout = n.layout :=
  (steady_of_setup Prod.mk).view_called h

theorem design_called {n n' : Node Builtin} (h : Called η n n') : n'.design = n.design :=
  (steady_of_setup fun info setup => (info.name, info.properties, setup)).view_called h

theorem layout_cancel (n : Node Builtin) (h : η) : (n.cancel h).1.layout = n.layout :=
  layout_called (.cancel h (.refl n))

/-! ### Trees without progress -/

@[simp]
theorem unstarted_leaf {info : NodeInfo} {kind : LeafKind} {b : Builtin} :
    (leaf info kind b).Unstarted ↔ b.startedAt = none := by
  simp [Unstarted, preorder, progress, setup, Setup.start]

@[simp]
theorem unstarted_inner {info : NodeInfo} {control : Control} {cs : List (Node Builtin)} :
    (inner info control cs).Unstarted ↔
      control.progress = control.settings.start.progress ∧ ∀ c ∈ cs, c.Unstarted := by
  simp only [Unstarted, preorder, preorderAll_eq_flatMap, List.forall_mem_cons,
    List.forall_mem_flatMap, progress, setup, Setup.start, Progress.inner.injEq]

/-- After a reset no node has made any progress. -/
theorem reset_unstarted (n : Node Builtin) (h : η) : (n.reset h).1.Unstarted := by
  unfold reset
  induction n generalizing h with
  | leaf info kind b =>
    rw [broadcast_leaf, unstarted_leaf]
    exact b.startedAt_restart
  | inner info control cs ih =>
    rw [broadcast_inner, unstarted_inner]
    refine ⟨by rw [Control.restart_eq_start, Control.settings_start], ?_⟩
    exact Machine.forall_mem_sweep ih h

/-- The state of a tree without progress says no more than its settings. -/
theorem state_of_unstarted {n : Node Builtin} (h : n.Unstarted) :
    n.state = n.view fun m => (m.name, m.setup, m.setup.start) :=
  view_congr fun m hm => by rw [h m hm]

/-- Two trees with one design and without progress are in one state. -/
theorem state_eq_of_design_eq {n m : Node Builtin} (hn : n.Unstarted) (hm : m.Unstarted)
    (h : n.design = m.design) : n.state = m.state := by
  rw [state_of_unstarted hn, state_of_unstarted hm]
  refine view_eq_of_view_eq ?_ h
  intro n m hroot
  obtain ⟨hname, -, hsetup⟩ := by simpa only [Prod.mk.injEq] using hroot
  rw [hname, hsetup]

/-! ### Trees that were never executed -/

/-- A tree that was built and edited, while none of its nodes was ticked, reset or cancelled.  The
    children of a node can be edited in place, or be exchanged for other such trees. -/
inductive Unexecuted : Node Builtin → Prop
  | leaf (id : NodeId) (kind : LeafKind) (s : Builtin.Settings) :
    Unexecuted (ofBehavior id kind s.start)
  | inner (id : NodeId) (s : Control.Settings) : Unexecuted (ofControl id s.start)
  | setName {n : Node Builtin} (name : String) : Unexecuted n → Unexecuted (n.setName name)
  | setProperty {η : Type} {n : Node Builtin} (key : String) (value : PropertyValue) (h : η) :
    Unexecuted n → Unexecuted (n.setProperty key value h).1
  | bindAgent {n : Node Builtin} (a : Agent) : Unexecuted n → Unexecuted (n.bindAgent a)
  | addChild {n c m : Node Builtin} {back : Option (Node Builtin)} :
    Unexecuted n → Unexecuted c → n.addChild c = (m, back) → Unexecuted m
  | handedBack {n c m d : Node Builtin} :
    Unexecuted n → Unexecuted c → n.addChild c = (m, some d) → Unexecuted d
  | removeChild {n c m : Node Builtin} (id : NodeId) :
    Unexecuted n → n.removeChild? id = some (c, m) → Unexecuted m
  | removedChild {n c m : Node Builtin} (id : NodeId) :
    Unexecuted n → n.removeChild? id = some (c, m) → Unexecuted c
  | exchange {info : NodeInfo} {control : Control} {before after : List (Node Builtin)}
    {c d : Node Builtin} :
    Unexecuted (.inner info control (before ++ c :: after)) → Unexecuted d →
      Unexecuted (.inner info control (before ++ d :: after))

theorem unstarted_withInfo {n : Node Builtin} {f : NodeInfo → NodeInfo} (h : n.Unstarted) :
    (n.withInfo f).Unstarted := by
  cases n with
  | leaf info kind b => exact unstarted_leaf.2 (unstarted_leaf.1 h)
  | inner info control cs => exact unstarted_inner.2 (unstarted_inner.1 h)

theorem unstarted_setProperty {n : Node Builtin} (key : String) (value : PropertyValue)
    (h : η) (hn : n.Unstarted) : (n.setProperty key value h).1.Unstarted := by
  cases n with
  | leaf info kind b =>
    rw [unstarted_leaf] at hn
    apply unstarted_leaf.2
    show (b.configure key value).startedAt = none
    rw [Builtin.startedAt_configure, hn]
  | inner info control cs =>
    rw [unstarted_inner] at hn
    refine unstarted_inner.2 ⟨?_, hn.2⟩
    rw [Control.progress_configure, hn.1, Control.progress_start_configure]

theorem unstarted_bindAgent {n : Node Builtin} (a : Agent) (h : n.Unstarted) :
    (n.bindAgent a).Unstarted := by
  induction n with
  | leaf info kind b =>
    rw [bindAgent]
    exact unstarted_leaf.2 (unstarted_leaf.1 h)
  | inner info control cs ih =>
    rw [unstarted_inner] at h
    rw [bindAgent, bindAgentAll_eq_map, unstarted_inner]
    refine ⟨h.1, ?_⟩
    intro d hd
    obtain ⟨c, hc, rfl⟩ := List.mem_map.1 hd
    exact ih c hc (h.2 c hc)

theorem unstarted_placedUnder {n c : Node Builtin} (h : c.Unstarted) :
    (n.placedUnder c).Unstarted := by
  unfold placedUnder setParent
  dsimp only
  split
  · exact unstarted_bindAgent _ (unstarted_withInfo h)
  · exact unstarted_withInfo h

theorem unstarted_addChild {n c : Node Builtin} (hn : n.Unstarted) (hc : c.Unstarted) :
    (n.addChild c).1.Unstarted ∧ ∀ d, (n.addChild c).2 = some d → d.Unstarted := by
  cases hroom : n.hasRoom with
  | false =>
    rw [addChild_of_full hroom]
    exact ⟨hn, fun d hd => Option.some.inj hd ▸ hc⟩
  | true =>
    unfold addChild
    rw [hroom]
    cases n with
    | leaf info kind b => exact ⟨hn, fun d hd => Option.some.inj hd ▸ hc⟩
    | inner info control cs =>
      rw [unstarted_inner] at hn
      refine ⟨unstarted_inner.2 ⟨hn.1, ?_⟩, nofun⟩
      rw [List.forall_mem_append, List.forall_mem_singleton]
      exact ⟨hn.2, unstarted_placedUnder hc⟩

/-- A child that is taken out stood among the children, and so did those that are left. -/
theorem mem_of_removeChild {β : Type} {info : NodeInfo} {control : Control}
    {cs : List (Node β)} {id : NodeId} {c m : Node β}
    (h : (inner info control cs).removeChild? id = some (c, m)) :
    ∃ d ∈ cs, c = d.setParent none ∧ ∃ ds, m = inner info control ds ∧ ∀ e ∈ ds, e ∈ cs := by
  rw [removeChild?, List.span_eq_takeWhile_dropWhile] at h
  generalize (fun c : Node β => decide (c.id ≠ id)) = p at h
  have hsplit := List.takeWhile_append_dropWhile (p := p) (l := cs)
  cases hdrop : cs.dropWhile p with
  | nil => simp [hdrop] at h
  | cons d after =>
    simp only [hdrop, Option.some.injEq, Prod.mk.injEq] at h
    rw [hdrop] at hsplit
    obtain ⟨rfl, rfl⟩ := h
    refine ⟨d, by rw [← hsplit]; simp, rfl, _, rfl, ?_⟩
    intro e he
    rw [← hsplit]
    rcases List.mem_append.1 he with he | he
    · exact List.mem_append_left _ he
    · exact List.mem_append_right _ (List.mem_cons_of_mem d he)

theorem unstarted_removeChild {n c m : Node Builtin} {id : NodeId} (hn : n.Unstarted)
    (h : n.removeChild? id = some (c, m)) : c.Unstarted ∧ m.Unstarted := by
  cases n with
  | leaf info kind b => simp [removeChild?] at h
  | inner info control cs =>
    rw [unstarted_inner] at hn
    obtain ⟨d, hd, rfl, ds, rfl, hds⟩ := mem_of_removeChild h
    exact ⟨unstarted_withInfo (hn.2 d hd), unstarted_inner.2 ⟨hn.1, fun e he => hn.2 e (hds e he)⟩⟩

/-- A tree that was never executed has made no progress anywhere. -/
theorem Unexecuted.unstarted {n : Node Builtin} (h : Unexecuted n) : n.Unstarted := by
  induction h with
  | leaf id kind s => exact unstarted_leaf.2 (Builtin.startedAt_start s)
  | inner id s =>
    refine unstarted_inner.2 ⟨?_, by simp⟩
    rw [Control.settings_start]
  | setName name _ ih => exact unstarted_withInfo ih
  | setProperty key value h _ ih => exact unstarted_setProperty key value h ih
  | bindAgent a _ ih => exact unstarted_bindAgent a ih
  | addChild _ _ hadd ihn ihc =>
    have hnext := (unstarted_addChild ihn ihc).1
    rwa [hadd] at hnext
  | handedBack _ _ hadd ihn ihc => exact (unstarted_addChild ihn ihc).2 _ (congrArg Prod.snd hadd)
  | removeChild id _ hremove ih => exact (unstarted_removeChild ih hremove).2
  | removedChild id _ hremove ih => exact (unstarted_removeChild ih hremove).1
  | exchange _ _ ihn ihd =>
    rw [unstarted_inner] at ihn ⊢
    rw [List.forall_mem_append, List.forall_mem_cons] at ihn ⊢
    exact ⟨ihn.1, ihn.2.1, ihd, ihn.2.2.2⟩

/-- A new inner node was never executed. -/
theorem unexecuted_fresh (id : NodeId) (k : InnerKind) : Unexecuted (ofControl id (.fresh k)) := by
  rw [Control.fresh_eq_start]
  exact .inner id _

/-- A message and then a pause, built under three numbers from `id` on. -/
def pausing (id : NodeId) : Node Builtin :=
  (ofControl id (.sequence 0)).addChildren
    [.ofBehavior (id + 1) .action (.log "ready" .info),
      .ofBehavior (id + 2) .action (.wait 1.0 none)]

theorem unexecuted_pausing (id : NodeId) : Unexecuted (pausing id) := by
  have hroot := unexecuted_fresh id .sequence
  have hlog := Unexecuted.leaf (id + 1) .action (.log "ready" .info)
  have hwait := Unexecuted.leaf (id + 2) .action (.wait 1.0)
  exact .addChild (.addChild hroot hlog rfl) hwait rfl

end Node

end BehaviorTree
