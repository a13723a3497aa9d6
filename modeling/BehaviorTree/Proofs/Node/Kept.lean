import BehaviorTree.Proofs.Node.Calls
import BehaviorTree.Proofs.Node.View

namespace BehaviorTree

/-!
# What a tree does to the world is what its leaves do

A relation between the worlds before and after, such as that some part of the world is the same, holds
of every tick of a tree if it holds of every tick of its leaves, and of the reports that nodes without
children make.

* `World.Tolerant` — a relation that does not mind these reports, and nothing about the host;
* `Machine.Keeps` — all that is done to a child keeps to the relation, and keeps the child such;
* `Control.tick_keeps` — then every control keeps to it;
* `Node.machine_keeps` — so does every tree over leaves that do;
* `Machine.Keeps.callAll` — and so does every sequence of calls.
-/

variable {β γ η : Type}

/-- A relation between worlds, before and after, that allows any number of steps, each with a report
    or with anything that the host does to its own state. -/
structure World.Tolerant (R : World η → World η → Prop) : Prop where
  refl : ∀ w, R w w
  trans : ∀ {w v u}, R w v → R v u → R w u
  emit : ∀ w r, R w (w.emit r)
  host : ∀ w h, R w { w with host := h }

namespace Machine

/-- What is done to a child for which `P` holds keeps to the relation `R`, and `P` holds after it. -/
structure Keeps (m : Machine γ η) (P : γ → Prop) (R : World η → World η → Prop) : Prop where
  tick : ∀ now {c} w, P c → P (m.tick now c w).next ∧ R w (m.tick now c w).world
  reset : ∀ {c} h, P c → P (m.reset c h).1
  cancel : ∀ {c} h, P c → P (m.cancel c h).1

variable {m : Machine γ η} {P : γ → Prop} {R : World η → World η → Prop} {now : Moment}
  {cs ds : List γ} {w v : World η}

/-- Exchanging one child for another one for which `P` holds. -/
theorem forall_exchange {before after : List γ} {c d : γ} (hd : P c → P d)
    (h : ∀ x ∈ before ++ c :: after, P x) : ∀ x ∈ before ++ d :: after, P x := by
  rw [List.forall_mem_append, List.forall_mem_cons] at h ⊢
  exact ⟨h.1, hd h.2.1, h.2.2⟩

theorem Keeps.quiet (k : m.Keeps P R) (hR : World.Tolerant R) (h : m.Quiet cs w ds v)
    (hcs : ∀ c ∈ cs, P c) : (∀ d ∈ ds, P d) ∧ R w v := by
  induction h with
  | refl => exact ⟨hcs, hR.refl w⟩
  | report name _ ih => exact ⟨ih.1, hR.trans ih.2 (hR.emit _ _)⟩
  | reset _ ih => exact ⟨forall_exchange (k.reset _) ih.1, hR.trans ih.2 (hR.host _ _)⟩
  | cancel _ ih => exact ⟨forall_exchange (k.cancel _) ih.1, hR.trans ih.2 (hR.host _ _)⟩

theorem Keeps.pass (k : m.Keeps P R) (hR : World.Tolerant R) (h : m.Pass now cs w ds v)
    (hcs : ∀ c ∈ cs, P c) : (∀ d ∈ ds, P d) ∧ R w v := by
  induction h with
  | nil => exact ⟨hcs, hR.refl _⟩
  | skip _ ih =>
    obtain ⟨hc, hcs⟩ := List.forall_mem_cons.1 hcs
    obtain ⟨hds, hworld⟩ := ih hcs
    exact ⟨List.forall_mem_cons.2 ⟨hc, hds⟩, hworld⟩
  | tick _ ih =>
    obtain ⟨hc, hcs⟩ := List.forall_mem_cons.1 hcs
    obtain ⟨hnext, hticked⟩ := k.tick now _ hc
    obtain ⟨hds, hworld⟩ := ih hcs
    exact ⟨List.forall_mem_cons.2 ⟨hnext, hds⟩, hR.trans hticked hworld⟩

theorem Keeps.round (k : m.Keeps P R) (hR : World.Tolerant R) (h : m.Round now cs w ds v)
    (hcs : ∀ c ∈ cs, P c) : (∀ d ∈ ds, P d) ∧ R w v := by
  obtain ⟨cs₁, w₁, cs₂, w₂, hbefore, hpass, hafter⟩ := h
  obtain ⟨hcs₁, hw₁⟩ := k.quiet hR hbefore hcs
  obtain ⟨hcs₂, hw₂⟩ := k.pass hR hpass hcs₁
  obtain ⟨hds, hv⟩ := k.quiet hR hafter hcs₂
  exact ⟨hds, hR.trans (hR.trans hw₁ hw₂) hv⟩

theorem Keeps.call (k : m.Keeps P R) (hR : World.Tolerant R) (call : Call) {c : γ} (w : World η)
    (hc : P c) : P (m.call call c w).2.1 ∧ R w (m.call call c w).2.2 := by
  cases call with
  | execute now => exact k.tick now w hc
  | reset => exact ⟨k.reset w.host hc, hR.host w _⟩
  | cancel => exact ⟨k.cancel w.host hc, hR.host w _⟩

/-- A child and the world after calls, one after the other. -/
def callAll (m : Machine γ η) (c : γ) (w : World η) : List Call → γ × World η
  | [] => (c, w)
  | call :: calls =>
    let (_, c, w) := m.call call c w
    m.callAll c w calls

/-- Any number of calls keep to the relation. -/
theorem Keeps.callAll (k : m.Keeps P R) (hR : World.Tolerant R) (calls : List Call) {c : γ}
    (w : World η) (hc : P c) : P (m.callAll c w calls).1 ∧ R w (m.callAll c w calls).2 := by
  induction calls generalizing c w with
  | nil => exact ⟨hc, hR.refl w⟩
  | cons call calls ih =>
    obtain ⟨hnext, hworld⟩ := k.call hR call w hc
    obtain ⟨hlast, hrest⟩ := ih _ hnext
    exact ⟨hlast, hR.trans hworld hrest⟩

end Machine

/-- A tick of a control over such children keeps to the relation, and leaves such children. -/
theorem Control.tick_keeps {m : Machine γ η} {P : γ → Prop} {R : World η → World η → Prop}
    (k : m.Keeps P R) (hR : World.Tolerant R) (name : String) (now : Moment) (control : Control)
    {cs : List γ} (w : World η) (hcs : ∀ c ∈ cs, P c) :
    (∀ d ∈ (control.tick m name now cs w).next.2, P d) ∧ R w (control.tick m name now cs w).world :=
  k.round hR (control.tick_round name now cs w) hcs

namespace Node

variable [Behavior β η] {p : β → Prop} {R : World η → World η → Prop}

/-- What is done to a leaf for which `p` holds keeps to the relation, and `p` holds after it. -/
structure LeavesKeep (η : Type) [Behavior β η] (p : β → Prop) (R : World η → World η → Prop) :
    Prop where
  tick : ∀ now agent {b} (w : World η), p b →
    p (Behavior.tick now agent b w).next ∧ R w (Behavior.tick now agent b w).world
  reset : ∀ {b} (h : η), p b → p (Behavior.reset b h).1
  cancel : ∀ {b} (h : η), p b → p (Behavior.cancel b h).1

omit [Behavior β η] in
theorem forall_leaves_leaf {info : NodeInfo} {kind : LeafKind} {b : β} :
    (∀ x ∈ leaves (.leaf info kind b), p x) ↔ p b := by
  rw [leaves, List.forall_mem_singleton]

omit [Behavior β η] in
theorem forall_leaves_inner {info : NodeInfo} {control : Control} {cs : List (Node β)} :
    (∀ x ∈ leaves (.inner info control cs), p x) ↔ ∀ c ∈ cs, ∀ x ∈ c.leaves, p x := by
  rw [leaves, leavesAll_eq_flatMap, List.forall_mem_flatMap]

omit [Behavior β η] in
/-- What a broadcast keeps of every leaf, it keeps of the leaves of a tree. -/
theorem forall_leaves_broadcast {onLeaf : β → η → β × η} {onControl : Control → Control}
    (hleaf : ∀ {b} h, p b → p (onLeaf b h).1) {n : Node β} (h : η) (hn : ∀ b ∈ n.leaves, p b) :
    ∀ b ∈ (broadcast onLeaf onControl n h).1.leaves, p b := by
  rw [(leaves_broadcast onLeaf onControl n h).1]
  exact Machine.forall_mem_sweep (fun b hb h => hleaf h (hn b hb)) h

/-- Trees over such leaves keep to the relation, by induction on their levels. -/
theorem machineUpTo_keeps (hleaf : LeavesKeep η p R) (hR : World.Tolerant R) (levels : Nat) :
    (machineUpTo levels : Machine (Node β) η).Keeps (fun n => ∀ b ∈ n.leaves, p b) R where
  tick now n w hn := by
    induction levels generalizing now n w with
    | zero => exact ⟨hn, hR.refl w⟩
    | succ levels ih =>
      cases n with
      | leaf info kind b =>
        obtain ⟨hnext, hworld⟩ := hleaf.tick now info.agent w (forall_leaves_leaf.1 hn)
        exact ⟨forall_leaves_leaf.2 hnext, hworld⟩
      | inner info control cs =>
        have below : (machineUpTo levels : Machine (Node β) η).Keeps
            (fun n => ∀ b ∈ n.leaves, p b) R :=
          { tick := fun now _ w hn => ih now _ w hn
            reset := fun h hn => by
              rw [reset_machineUpTo]
              exact forall_leaves_broadcast hleaf.reset h hn
            cancel := fun h hn => by
              rw [cancel_machineUpTo]
              exact forall_leaves_broadcast hleaf.cancel h hn }
        obtain ⟨hcs, hworld⟩ := control.tick_keeps below hR info.name now w
          (forall_leaves_inner.1 hn)
        exact ⟨forall_leaves_inner.2 hcs, hworld⟩
  reset h hn := by
    rw [reset_machineUpTo]
    exact forall_leaves_broadcast hleaf.reset h hn
  cancel h hn := by
    rw [cancel_machineUpTo]
    exact forall_leaves_broadcast hleaf.cancel h hn

/-- Trees over such leaves keep to the relation. -/
theorem machine_keeps (hleaf : LeavesKeep η p R) (hR : World.Tolerant R) :
    (machine : Machine (Node β) η).Keeps (fun n => ∀ b ∈ n.leaves, p b) R where
  tick now n w := (machineUpTo_keeps hleaf hR n.depth).tick now w
  reset h := forall_leaves_broadcast hleaf.reset h
  cancel h := forall_leaves_broadcast hleaf.cancel h

end Node

end BehaviorTree
