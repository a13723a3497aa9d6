import BehaviorTree.Node.Edit
import BehaviorTree.Proofs.Control.Walk
import BehaviorTree.Proofs.Node.Calls
import BehaviorTree.Proofs.Node.Restart

namespace BehaviorTree

/-!
# Nested composites are flat

A sequence among the children of a sequence can be replaced by its own children, and so can a selector
among those of a selector.  The two trees are not in one state.  The inner composite is reset as soon
as it is done, while its children in the flat tree stay as they ended until the whole run is over; but
a cursor that is behind them only leaves them with a reset.

* `Node.Aligned` — the cursors of the two trees stand at the same place, and the children that can
  still be ticked before the next reset are in one state;
* `Node.aligned_walk`, `Node.aligned_tick` — a tick keeps this, with the same answer and the same
  effects;
* `Node.machine_flattens` — so does every call;
* `Node.nested_composites_flatten` — the two trees cannot be told apart by calls.
-/

variable {η : Type}

namespace Node

open Control (Walks)
open Ordered (walk)

/-! ### Places -/

/-- A cursor and children, of which one is a composite, beside a cursor and the same children, in
    which those of that composite stand in its place.  As long as the cursor is not behind the inner
    children they are in one state; behind them it is enough that a reset leads to one state. -/
inductive Aligned (control : Nat → Control) :
    Nat × List (Node Builtin) → Nat × List (Node Builtin) → Prop
  | before {info : NodeInfo} {xs xs' ys ys' zs zs' : List (Node Builtin)} {i : Nat} :
    List.Forall₂ SameState xs xs' → List.Forall₂ SameState ys ys' → List.Forall₂ SameState zs zs' →
    i ≤ xs.length →
    Aligned control (i, xs ++ inner info (control 0) ys :: zs) (i, xs' ++ (ys' ++ zs'))
  | inside {info : NodeInfo} {xs xs' ys ys' zs zs' : List (Node Builtin)} {i k place : Nat} :
    List.Forall₂ SameState xs xs' → List.Forall₂ SameState ys ys' → List.Forall₂ SameState zs zs' →
    place ≤ ys.length → i = xs.length → k = xs.length + place →
    Aligned control (i, xs ++ inner info (control place) ys :: zs) (k, xs' ++ (ys' ++ zs'))
  | behind {info : NodeInfo} {xs xs' ys ys' zs zs' : List (Node Builtin)} {i k : Nat} (place : Nat) :
    List.Forall₂ SameState xs xs' → List.Forall₂ SameStart ys ys' → List.Forall₂ SameState zs zs' →
    i = xs.length + (place + 1) → k = xs.length + (ys.length + place) →
    Aligned control (i, xs ++ inner info (control 0) ys :: zs) (k, xs' ++ (ys' ++ zs'))

/-- The same children as far as a reset can see. -/
inductive Parted (control : Nat → Control) : List (Node Builtin) → List (Node Builtin) → Prop
  | mk {info : NodeInfo} {xs xs' ys ys' zs zs' : List (Node Builtin)} {place : Nat} :
    List.Forall₂ SameStart xs xs' → List.Forall₂ SameStart ys ys' → List.Forall₂ SameStart zs zs' →
    Parted control (xs ++ inner info (control place) ys :: zs) (xs' ++ (ys' ++ zs'))

variable {control : Nat → Control} {goOn : Status} {now : Moment}

theorem sameStart_of_sameState {cs ds : List (Node Builtin)} (h : List.Forall₂ SameState cs ds) :
    List.Forall₂ SameStart cs ds :=
  h.imp fun _ _ hcd => hcd.sameStart

theorem Aligned.parted {a b : Nat × List (Node Builtin)} (h : Aligned control a b) :
    Parted control a.2 b.2 := by
  cases h with
  | before hxs hys hzs _ =>
    exact .mk (sameStart_of_sameState hxs) (sameStart_of_sameState hys) (sameStart_of_sameState hzs)
  | inside hxs hys hzs _ _ _ =>
    exact .mk (sameStart_of_sameState hxs) (sameStart_of_sameState hys) (sameStart_of_sameState hzs)
  | behind place hxs hys hzs _ _ =>
    exact .mk (sameStart_of_sameState hxs) hys (sameStart_of_sameState hzs)

/-- More children in one state before all others. -/
theorem Aligned.prepend {ps ps' : List (Node Builtin)} (hps : List.Forall₂ SameState ps ps')
    {a b : Nat × List (Node Builtin)} (h : Aligned control a b) :
    Aligned control (ps.length + a.1, ps ++ a.2) (ps'.length + b.1, ps' ++ b.2) := by
  have hlength := hps.length_eq
  cases h with
  | before hxs hys hzs hi =>
    dsimp only
    rw [← hlength, ← List.append_assoc, ← List.append_assoc ps']
    refine .before (List.rel_append hps hxs) hys hzs ?_
    rw [List.length_append]
    omega
  | inside hxs hys hzs hplace hi hk =>
    dsimp only
    rw [← List.append_assoc, ← List.append_assoc ps']
    refine .inside (List.rel_append hps hxs) hys hzs hplace ?_ ?_
    · rw [List.length_append]; omega
    · rw [List.length_append]; omega
  | behind place hxs hys hzs hi hk =>
    dsimp only
    rw [← List.append_assoc, ← List.append_assoc ps']
    refine .behind place (List.rel_append hps hxs) hys hzs ?_ ?_
    · rw [List.length_append]; omega
    · rw [List.length_append]; omega

theorem Parted.prepend {ps ps' : List (Node Builtin)} (hps : List.Forall₂ SameState ps ps')
    {cs ds : List (Node Builtin)} (h : Parted control cs ds) :
    Parted control (ps ++ cs) (ps' ++ ds) := by
  cases h with
  | mk hxs hys hzs =>
    rw [← List.append_assoc, ← List.append_assoc ps']
    exact .mk (List.rel_append (sameStart_of_sameState hps) hxs) hys hzs

/-! ### Resets and cancellations -/

theorem restarted_sameState {cs ds : List (Node Builtin)} (h : List.Forall₂ SameStart cs ds) :
    List.Forall₂ SameState (cs.map restarted) (ds.map restarted) := by
  rw [List.forall₂_map_left_iff, List.forall₂_map_right_iff]
  exact h.imp fun _ _ hcd => sameState_restarted_iff.2 hcd

theorem abandoned_sameState {cs ds : List (Node Builtin)} (h : List.Forall₂ SameState cs ds) :
    List.Forall₂ SameState (cs.map abandoned) (ds.map abandoned) := by
  rw [List.forall₂_map_left_iff, List.forall₂_map_right_iff]
  exact h.imp fun _ _ hcd => hcd.abandoned

theorem abandoned_sameStart {cs ds : List (Node Builtin)} (h : List.Forall₂ SameStart cs ds) :
    List.Forall₂ SameStart (cs.map abandoned) (ds.map abandoned) := by
  rw [List.forall₂_map_left_iff, List.forall₂_map_right_iff]
  refine h.imp ?_
  intro c d hcd
  unfold SameStart at hcd ⊢
  rw [startState_abandoned, startState_abandoned, hcd]

/-- A reset of all children brings the two trees to their beginning. -/
theorem Parted.restarted (hw : Walks control goOn) {cs ds : List (Node Builtin)}
    (h : Parted control cs ds) :
    Aligned control (0, cs.map Node.restarted) (0, ds.map Node.restarted) := by
  cases h with
  | mk hxs hys hzs =>
    rw [List.map_append, List.map_cons, restarted_inner, hw.restart, List.map_append,
      List.map_append]
    exact .before (restarted_sameState hxs) (restarted_sameState hys) (restarted_sameState hzs)
      (Nat.zero_le _)

/-- A cancellation of all children moves no cursor, neither outside nor inside. -/
theorem Aligned.abandoned (hw : Walks control goOn) {i k : Nat} {cs ds : List (Node Builtin)}
    (h : Aligned control (i, cs) (k, ds)) :
    Aligned control (i, cs.map Node.abandoned) (k, ds.map Node.abandoned) := by
  cases h with
  | before hxs hys hzs hi =>
    rw [List.map_append, List.map_cons, abandoned_inner, hw.abandon, List.map_append,
      List.map_append]
    exact .before (abandoned_sameState hxs) (abandoned_sameState hys) (abandoned_sameState hzs)
      (by rwa [List.length_map])
  | inside hxs hys hzs hplace hi hk =>
    rw [List.map_append, List.map_cons, abandoned_inner, hw.abandon, List.map_append,
      List.map_append]
    exact .inside (abandoned_sameState hxs) (abandoned_sameState hys) (abandoned_sameState hzs)
      (by rwa [List.length_map]) (by rwa [List.length_map]) (by rwa [List.length_map])
  | behind place hxs hys hzs hi hk =>
    rw [List.map_append, List.map_cons, abandoned_inner, hw.abandon, List.map_append,
      List.map_append]
    exact .behind place (abandoned_sameState hxs) (abandoned_sameStart hys) (abandoned_sameState hzs)
      (by rwa [List.length_map]) (by rwa [List.length_map, List.length_map])

/-! ### Walks -/

/-- Two walks with the same answer and the same effects.  If they stopped at a running child they did
    so at the same place; otherwise the children are the same as far as the reset after it can see. -/
structure WalkedAlike (control : Nat → Control) (o p : Outcome (Nat × List (Node Builtin)) η) :
    Prop where
  status : o.status = p.status
  world : o.world = p.world
  parted : Parted control o.next.2 p.next.2
  aligned : o.status = .running → Aligned control o.next p.next

theorem WalkedAlike.behind {o p : Outcome (Nat × List (Node Builtin)) η}
    (h : WalkedAlike control o p) {cs ds : List (Node Builtin)} (hcs : List.Forall₂ SameState cs ds) :
    WalkedAlike control (o.behind cs) (p.behind ds) where
  status := h.status
  world := h.world
  parted := h.parted.prepend hcs
  aligned hrunning := (h.aligned hrunning).prepend hcs

/-- Children in one state are walked along alike. -/
theorem walk_match {cs ds : List (Node Builtin)} (h : List.Forall₂ SameState cs ds) (goOn : Status)
    (now : Moment) (cursor : Nat) (w : World η) :
    (walk machine goOn now cursor cs w).Match (Beside SameState)
      (walk machine goOn now cursor ds w) :=
  Outcome.match_iff.2 (Ordered.walk_corresponds machine_simulation.correspondence goOn now cursor h
    (World.match_eq_iff.2 rfl))

/-- A composite that ends its run resets its children, and stands at its beginning again. -/
theorem execute_composite_ended (hw : Walks control goOn) {info : NodeInfo} {place : Nat}
    {ys : List (Node Builtin)} {w : World η}
    (h : (walk machine goOn now place ys w).status ≠ .running) :
    execute now (inner info (control place) ys) w =
      ⟨(walk machine goOn now place ys w).status,
        inner info (control 0) ((walk machine goOn now place ys w).next.2.map restarted),
        (walk machine goOn now place ys w).world⟩ := by
  rw [execute_inner, hw.tick, Ordered.tick, if_neg h, resetAll_machine]
  rfl

/-- A composite that runs stands at the child that runs. -/
theorem execute_composite_running (hw : Walks control goOn) {info : NodeInfo} {place : Nat}
    {ys : List (Node Builtin)} {w : World η}
    (h : (walk machine goOn now place ys w).status = .running) :
    execute now (inner info (control place) ys) w =
      (walk machine goOn now place ys w).map fun r => inner info (control r.1) r.2 := by
  rw [execute_inner, hw.tick, Ordered.tick, if_pos h]
  rfl

/-- What a composite that ended its run leaves starts like what the flat walk leaves. -/
theorem sameStart_ended {r r' : Outcome (Nat × List (Node Builtin)) η}
    (h : r.Match (Beside SameState) r') :
    List.Forall₂ SameStart (r.next.2.map restarted) r'.next.2 := by
  rw [List.forall₂_map_left_iff]
  refine h.next.2.imp ?_
  intro c d hcd
  exact (startState_restarted c).trans hcd.sameStart

section

variable {info : NodeInfo} {r r' : Outcome (Nat × List (Node Builtin)) η}

/-- Both walks are behind the inner children. -/
theorem walkedAlike_behind {ys ys' : List (Node Builtin)} (hys : List.Forall₂ SameStart ys ys')
    (hr : r.Match (Beside SameState) r') :
    WalkedAlike control (r.behind [inner info (control 0) ys]) (r'.behind ys') where
  status := hr.status
  world := hr.world
  parted := @Parted.mk control info [] [] _ _ _ _ 0 .nil hys (sameStart_of_sameState hr.next.2)
  aligned _ := by
    refine @Aligned.behind control info [] [] _ _ _ _ _ _ r.next.1 .nil hys hr.next.2 ?_ ?_
    · rw [List.length_nil, List.length_singleton]
      omega
    · rw [List.length_nil, hys.length_eq, hr.next.1]
      omega

/-- Both walks stopped at an inner child that runs. -/
theorem walkedAlike_running (hr : r.Match (Beside SameState) r') (hplace : r.next.1 ≤ r.next.2.length)
    {zs zs' : List (Node Builtin)} (hzs : List.Forall₂ SameState zs zs') :
    WalkedAlike control (r.map fun q => (0, inner info (control q.1) q.2 :: zs)) (r'.before zs') where
  status := hr.status
  world := hr.world
  parted := @Parted.mk control info [] [] _ _ _ _ r.next.1 .nil (sameStart_of_sameState hr.next.2)
    (sameStart_of_sameState hzs)
  aligned _ := by
    refine @Aligned.inside control info [] [] _ _ _ _ _ _ r.next.1 .nil hr.next.2 hzs hplace rfl ?_
    rw [List.length_nil, Nat.zero_add]
    exact hr.next.1.symm

/-- Both walks stopped at an inner child that ended the run. -/
theorem walkedAlike_ended (hr : r.Match (Beside SameState) r') (hended : r.status ≠ .running)
    {zs zs' : List (Node Builtin)} (hzs : List.Forall₂ SameState zs zs') :
    WalkedAlike control
      ⟨r.status, (0, inner info (control 0) (r.next.2.map restarted) :: zs), r.world⟩
      (r'.before zs') where
  status := hr.status
  world := hr.world
  parted := @Parted.mk control info [] [] _ _ _ _ 0 .nil (sameStart_ended hr)
    (sameStart_of_sameState hzs)
  aligned hrunning := absurd hrunning hended

end

/-- From the inner composite on, the nested walk does what the flat one does from the first of the
    inner children that it has not passed yet. -/
theorem walk_composite (hw : Walks control goOn) (info : NodeInfo)
    {ys ys' zs zs' : List (Node Builtin)} (hys : List.Forall₂ SameState ys ys')
    (hzs : List.Forall₂ SameState zs zs') {place : Nat} (hplace : place ≤ ys.length) (w : World η) :
    WalkedAlike control (walk machine goOn now 0 (inner info (control place) ys :: zs) w)
      (walk machine goOn now place (ys' ++ zs') w) := by
  have hr := walk_match hys goOn now place w
  by_cases hpass : (walk machine goOn now place ys w).status = goOn
  · -- the composite ends with its last child, and both walks come to the children behind it
    have hpass' : (walk machine goOn now place ys' w).status = goOn := hr.status ▸ hpass
    have hended : (walk machine goOn now place ys w).status ≠ .running := by
      rw [hpass]; exact hw.goOn_ne
    have htick : machine.tick now (inner info (control place) ys) w = _ :=
      execute_composite_ended hw hended
    rw [Ordered.walk_cons_of_passed (by rw [htick]; exact hpass), htick,
      Ordered.walk_append_of_passed (hys.length_eq ▸ hplace) hpass', ← hr.world]
    exact walkedAlike_behind (sameStart_ended hr) (walk_match hzs goOn now 0 _)
  · have hstop' : (walk machine goOn now place ys' w).status ≠ goOn := hr.status ▸ hpass
    rw [Ordered.walk_append_of_stopped hstop']
    by_cases hrunning : (walk machine goOn now place ys w).status = .running
    · -- the cursor of the composite and that of the flat tree stand at the child that runs
      have htick : machine.tick now (inner info (control place) ys) w = _ :=
        execute_composite_running hw hrunning
      rw [Ordered.walk_cons_of_stopped (by rw [htick]; exact hpass), htick]
      exact walkedAlike_running hr (Nat.le_of_lt (Ordered.cursor_lt_of_stopped hpass)) hzs
    · -- the composite is reset at once, and the flat tree will be when its tick is over
      have htick : machine.tick now (inner info (control place) ys) w = _ :=
        execute_composite_ended hw hrunning
      rw [Ordered.walk_cons_of_stopped (by rw [htick]; exact hpass), htick]
      exact walkedAlike_ended hr hrunning hzs

/-- Two walks that begin at the same place are alike. -/
theorem aligned_walk (hw : Walks control goOn) {a b : Nat × List (Node Builtin)}
    (h : Aligned control a b) (w : World η) :
    WalkedAlike control (walk machine goOn now a.1 a.2 w) (walk machine goOn now b.1 b.2 w) := by
  cases h with
  | @before info xs xs' ys ys' zs zs' i hxs hys hzs hi =>
    have hr := walk_match hxs goOn now i w
    dsimp only
    by_cases hpass : (walk machine goOn now i xs w).status = goOn
    · have hpass' : (walk machine goOn now i xs' w).status = goOn := hr.status ▸ hpass
      rw [Ordered.walk_append_of_passed hi hpass,
        Ordered.walk_append_of_passed (hxs.length_eq ▸ hi) hpass', ← hr.world]
      exact (walk_composite hw info hys hzs (Nat.zero_le _) _).behind hr.next.2
    · have hstop' : (walk machine goOn now i xs' w).status ≠ goOn := hr.status ▸ hpass
      have hplaces : Aligned control
          ((walk machine goOn now i xs w).before (inner info (control 0) ys :: zs)).next
          ((walk machine goOn now i xs' w).before (ys' ++ zs')).next := by
        simp only [Outcome.before, Outcome.map, ← hr.next.1]
        exact .before hr.next.2 hys hzs (Nat.le_of_lt (Ordered.cursor_lt_of_stopped hpass))
      rw [Ordered.walk_append_of_stopped hpass, Ordered.walk_append_of_stopped hstop']
      exact ⟨hr.status, hr.world, hplaces.parted, fun _ => hplaces⟩
  | @inside info xs xs' ys ys' zs zs' i k place hxs hys hzs hplace hi hk =>
    subst hi hk
    dsimp only
    rw [hxs.length_eq, Ordered.walk_behind, ← hxs.length_eq, ← Nat.add_zero xs.length,
      Ordered.walk_behind]
    exact (walk_composite hw info hys hzs hplace w).behind hxs
  | @behind info xs xs' ys ys' zs zs' i k place hxs hys hzs hi hk =>
    subst hi hk
    have hnested : walk machine goOn now (place + 1) (inner info (control 0) ys :: zs) w =
        (walk machine goOn now place zs w).behind [inner info (control 0) ys] := by
      have hbehind := @Ordered.walk_behind _ _ machine goOn now [inner info (control 0) ys] zs place w
      rwa [List.length_singleton, Nat.add_comm] at hbehind
    dsimp only
    rw [Ordered.walk_behind, hnested, hxs.length_eq, hys.length_eq, Ordered.walk_behind,
      Ordered.walk_behind]
    exact (walkedAlike_behind hys (walk_match hzs goOn now place w)).behind hxs

/-! ### Calls -/

/-- A tick keeps the two cursors aligned. -/
theorem aligned_tick (hw : Walks control goOn) {a b : Nat × List (Node Builtin)}
    (h : Aligned control a b) (w : World η) :
    (Ordered.tick machine goOn now a.1 a.2 w).Match (Aligned control)
      (Ordered.tick machine goOn now b.1 b.2 w) := by
  have hwalk : WalkedAlike control (walk machine goOn now a.1 a.2 w)
      (walk machine goOn now b.1 b.2 w) := aligned_walk hw h w
  simp only [Ordered.tick, ← hwalk.status]
  split
  · next hrunning => exact ⟨hwalk.status, hwalk.aligned hrunning, hwalk.world⟩
  · -- the run is over, and after its reset the two trees are where they were before the first tick
    rw [resetAll_machine, resetAll_machine]
    exact ⟨rfl, hwalk.parted.restarted hw, hwalk.world⟩

/-- Two composites over aligned cursors and children. -/
inductive Flattens (control : Nat → Control) : Node Builtin → Node Builtin → Prop
  | mk (info info' : NodeInfo) {a b : Nat × List (Node Builtin)} : Aligned control a b →
    Flattens control (inner info (control a.1) a.2) (inner info' (control b.1) b.2)

theorem execute_flattens (hw : Walks control goOn) (now : Moment) {n m : Node Builtin} (w : World η)
    (h : Flattens control n m) :
    (execute now n w).Match (Flattens control) (execute now m w) := by
  obtain @⟨info, info', a, b, hab⟩ := h
  have htick : (Ordered.tick machine goOn now a.1 a.2 w).Match (Aligned control)
      (Ordered.tick machine goOn now b.1 b.2 w) := aligned_tick hw hab w
  rw [execute_inner, execute_inner, hw.tick, hw.tick]
  exact ⟨htick.status, .mk info info' htick.next, htick.world⟩

theorem restarted_flattens (hw : Walks control goOn) {n m : Node Builtin}
    (h : Flattens control n m) : Flattens control n.restarted m.restarted := by
  obtain @⟨info, info', a, b, hab⟩ := h
  rw [restarted_inner, restarted_inner, hw.restart, hw.restart]
  exact .mk info info' (hab.parted.restarted hw)

theorem abandoned_flattens (hw : Walks control goOn) {n m : Node Builtin}
    (h : Flattens control n m) : Flattens control n.abandoned m.abandoned := by
  obtain @⟨info, info', a, b, hab⟩ := h
  rw [abandoned_inner, abandoned_inner, hw.abandon, hw.abandon]
  exact .mk info info' (hab.abandoned hw)

/-- Calls to the two trees have the same answers and the same effects, and leave two such trees. -/
theorem machine_flattens (hw : Walks control goOn) :
    (machine : Machine (Node Builtin) η).Simulation (Flattens control) machine where
  tick now _ _ w h := execute_flattens hw now w h
  reset n m host h := by
    show Flattens control (n.reset host).1 (m.reset host).1 ∧ (n.reset host).2 = (m.reset host).2
    rw [reset_eq, reset_eq]
    exact ⟨restarted_flattens hw h, rfl⟩
  cancel n m host h := by
    show Flattens control (n.cancel host).1 (m.cancel host).1 ∧ (n.cancel host).2 = (m.cancel host).2
    rw [cancel_eq, cancel_eq]
    exact ⟨abandoned_flattens hw h, rfl⟩

/-! ### New composites -/

/-- A composite without progress that took some trees as its children, one after the other. -/
def composite (control : Nat → Control) (info : NodeInfo) (cs : List (Node Builtin)) : Node Builtin :=
  (inner info (control 0) []).addChildren cs

/-- A node that takes any number of children takes them all, in order. -/
theorem addChildren_inner {β : Type} {info : NodeInfo} {c : Control} (hroom : c.capacity = none)
    (cs ds : List (Node β)) :
    (inner info c cs).addChildren ds =
      inner info c (cs ++ ds.map (inner info c cs).placedUnder) := by
  induction ds generalizing cs with
  | nil => rw [List.map_nil, List.append_nil]; rfl
  | cons d ds ih =>
    have hadd : (inner info c cs).addChild d =
        (inner info c (cs ++ [(inner info c cs).placedUnder d]), none) := by
      rw [addChild, hasRoom, capacity, hroom]
      rfl
    have hrest : (inner info c cs).addChildren (d :: ds) =
        (inner info c (cs ++ [(inner info c cs).placedUnder d])).addChildren ds := by
      rw [addChildren, List.foldl_cons, hadd]
      rfl
    rw [hrest, ih, List.append_assoc]
    rfl

/-- The children of a new composite are in the states of the trees that it took. -/
theorem composite_children (hw : Walks control goOn) (info : NodeInfo) :
    ∃ place : Node Builtin → Node Builtin, (∀ c, SameState (place c) c) ∧
      ∀ cs, composite control info cs = inner info (control 0) (cs.map place) := by
  refine ⟨(inner info (control 0) []).placedUnder, sameState_placedUnder _, ?_⟩
  intro cs
  exact addChildren_inner (hw.capacity 0) [] cs

/-- Wherever the same trees are put, they are in the same states. -/
theorem sameState_map {f g : Node Builtin → Node Builtin} (hf : ∀ c, SameState (f c) c)
    (hg : ∀ c, SameState (g c) c) (cs : List (Node Builtin)) :
    List.Forall₂ SameState (cs.map f) (cs.map g) := by
  rw [List.forall₂_map_left_iff, List.forall₂_map_right_iff, List.forall₂_same]
  intro c _
  exact (hf c).trans (hg c).symm

/-- A new composite with a composite among its children, and one with the children of that instead. -/
theorem flattens_composite (hw : Walks control goOn) (info info₁ info' : NodeInfo)
    (xs ys zs : List (Node Builtin)) :
    Flattens control (composite control info (xs ++ [composite control info₁ ys] ++ zs))
      (composite control info' (xs ++ ys ++ zs)) := by
  obtain ⟨place, hplace, hnested⟩ := composite_children hw info
  obtain ⟨place₁, hplace₁, hinner⟩ := composite_children hw info₁
  obtain ⟨place', hplace', hflat⟩ := composite_children hw info'
  -- the inner composite is linked to the outer one, and may be bound to its agent with all it has
  have hlinked := (hplace (composite control info₁ ys)).symm
  rw [hinner] at hlinked
  obtain ⟨info₂, ds, hcomposite, -, hds⟩ := hlinked.of_inner
  have hys : List.Forall₂ SameState ds (ys.map place') := by
    have hinside := forall₂_sameState_iff.1 (sameState_map hplace₁ hplace' ys)
    exact forall₂_sameState_iff.2 ((forall₂_sameState_iff.1 hds).symm.trans hinside)
  have haligned : Aligned control
      (0, xs.map place ++ inner info₂ (control 0) ds :: zs.map place)
      (0, xs.map place' ++ (ys.map place' ++ zs.map place')) :=
    .before (sameState_map hplace hplace' xs) hys (sameState_map hplace hplace' zs) (Nat.zero_le _)
  rw [hnested, hflat, List.append_assoc, List.singleton_append, List.map_append, List.map_cons,
    hinner, hcomposite, List.append_assoc, List.map_append, List.map_append]
  exact .mk info info' haligned

/-- **Nested composites are flat.**  A sequence whose children are some trees, a sequence and some
    more trees answers every sequence of calls like the sequence with the children of the inner one in
    its place, and leaves the same worlds; so does a selector with a selector. -/
theorem nested_composites_flatten (info info₁ info' : NodeInfo) (xs ys zs : List (Node Builtin))
    (w : World η) (calls : List (Call × World.Change η)) :
    (composite .sequence info (xs ++ [composite .sequence info₁ ys] ++ zs)).answers w calls =
        (composite .sequence info' (xs ++ ys ++ zs)).answers w calls ∧
      (composite .selector info (xs ++ [composite .selector info₁ ys] ++ zs)).answers w calls =
        (composite .selector info' (xs ++ ys ++ zs)).answers w calls := by
  have hsequence := flattens_composite Control.walks_sequence info info₁ info' xs ys zs
  have hselector := flattens_composite Control.walks_selector info info₁ info' xs ys zs
  exact ⟨(machine_flattens Control.walks_sequence).answers_eq calls hsequence w,
    (machine_flattens Control.walks_selector).answers_eq calls hselector w⟩

end Node

end BehaviorTree
