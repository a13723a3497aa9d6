import BehaviorTree.Leaf.Behavior

namespace BehaviorTree

/-!
# Children as machines

The control nodes do not look into their children: they tick, reset and cancel them.  A `Machine`
says how this is done for children of some type, and every control node is a function of it.

* `Machine.sweep` does the same to every child, in order, and threads the state of the host.
* `Machine.tickAll` ticks every child once, in order.
-/

/-- How children of type `γ` are ticked, reset and cancelled. -/
structure Machine (γ η : Type) where
  tick : Moment → γ → World η → Outcome γ η
  reset : γ → η → γ × η
  cancel : γ → η → γ × η

namespace Machine

variable {γ η : Type}

/-- Does `f` to every child, from the first to the last. -/
def sweep (f : γ → η → γ × η) : List γ → η → List γ × η
  | [], h => ([], h)
  | c :: cs, h =>
    let (c, h) := f c h
    let (cs, h) := sweep f cs h
    (c :: cs, h)

/-- Resets every child. -/
def resetAll (m : Machine γ η) (cs : List γ) (w : World η) : List γ × World η :=
  w.atHost (sweep m.reset cs)

/-- Cancels every child. -/
def cancelAll (m : Machine γ η) (cs : List γ) (w : World η) : List γ × World η :=
  w.atHost (sweep m.cancel cs)

/-- Ticks every child, from the first to the last, and collects what they answer. -/
def tickAll (m : Machine γ η) (now : Moment) :
    List γ → World η → List Status × List γ × World η
  | [], w => ([], [], w)
  | c :: cs, w =>
    let o := m.tick now c w
    let (answers, cs, w) := m.tickAll now cs o.world
    (o.status :: answers, o.next :: cs, w)

@[simp]
theorem sweep_nil (f : γ → η → γ × η) (h : η) : sweep f [] h = ([], h) := rfl

theorem sweep_cons (f : γ → η → γ × η) (c : γ) (cs : List γ) (h : η) :
    sweep f (c :: cs) h =
      ((f c h).1 :: (sweep f cs (f c h).2).1, (sweep f cs (f c h).2).2) := rfl

@[simp]
theorem length_sweep (f : γ → η → γ × η) (cs : List γ) (h : η) :
    (sweep f cs h).1.length = cs.length := by
  induction cs generalizing h with
  | nil => rfl
  | cons c cs ih => simp [sweep_cons, ih]

theorem sweep_append (f : γ → η → γ × η) (cs ds : List γ) (h : η) :
    sweep f (cs ++ ds) h =
      ((sweep f cs h).1 ++ (sweep f ds (sweep f cs h).2).1, (sweep f ds (sweep f cs h).2).2) := by
  induction cs generalizing h with
  | nil => rfl
  | cons c cs ih => simp [sweep_cons, ih]

/-- What holds of every child after the action holds of all children after a sweep. -/
theorem forall_mem_sweep {Q : γ → Prop} {f : γ → η → γ × η} {cs : List γ}
    (hf : ∀ c ∈ cs, ∀ h, Q (f c h).1) (h : η) : ∀ c ∈ (sweep f cs h).1, Q c := by
  induction cs generalizing h with
  | nil => simp
  | cons c cs ih =>
    obtain ⟨hc, hcs⟩ := List.forall_mem_cons.1 hf
    rw [sweep_cons, List.forall_mem_cons]
    exact ⟨hc h, ih hcs _⟩

/-- What is seen of every child after the action is seen of all children after a sweep. -/
theorem map_sweep {α : Type} {u v : γ → α} {f : γ → η → γ × η} {cs : List γ}
    (hf : ∀ c ∈ cs, ∀ h, u (f c h).1 = v c) (h : η) : (sweep f cs h).1.map u = cs.map v := by
  induction cs generalizing h with
  | nil => rfl
  | cons c cs ih =>
    obtain ⟨hc, hcs⟩ := List.forall_mem_cons.1 hf
    rw [sweep_cons, List.map_cons, List.map_cons, hc, ih hcs]

/-- What the host sees of each child, it sees of one child after the other. -/
theorem seen_sweep {α : Type} {seen : η → List α} {said : γ → List α} {f : γ → η → γ × η}
    (hf : ∀ c h, seen (f c h).2 = seen h ++ said c) (cs : List γ) (h : η) :
    seen (sweep f cs h).2 = seen h ++ cs.flatMap said := by
  induction cs generalizing h with
  | nil => simp
  | cons c cs ih => rw [sweep_cons, ih, hf, List.flatMap_cons, List.append_assoc]

/-- A sweep with an action that keeps the host's state for the children at hand is a map. -/
theorem sweep_eq_map {f : γ → η → γ × η} {g : γ → γ} {cs : List γ}
    (hf : ∀ c ∈ cs, ∀ h, f c h = (g c, h)) (h : η) : sweep f cs h = (cs.map g, h) := by
  induction cs with
  | nil => rfl
  | cons c cs ih =>
    obtain ⟨hc, hcs⟩ := List.forall_mem_cons.1 hf
    rw [sweep_cons, hc, ih hcs, List.map_cons]

end Machine

end BehaviorTree
