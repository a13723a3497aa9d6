import BehaviorTree.Control.Ordered

namespace BehaviorTree

/-!
# The duality of the composites

A sequence goes on after a success, a selector after a failure.  Over children whose answers are
inverted the one does what the other does over the children themselves, with the answer inverted.

* `Machine.inverted` — the same children, with success and failure exchanged in what they answer;
* `Ordered.tick_inverted` — one tick over inverted children is the dual tick, inverted.
-/

variable {γ σ η : Type}

theorem Status.invert_eq_iff {s t : Status} : s.invert = t ↔ s = t.invert := by
  cases s <;> cases t <;> decide

/-- The outcome with success and failure exchanged. -/
def Outcome.invert (o : Outcome σ η) : Outcome σ η := { o with status := o.status.invert }

@[simp]
theorem Outcome.status_invert (o : Outcome σ η) : o.invert.status = o.status.invert := rfl

@[simp]
theorem Outcome.next_invert (o : Outcome σ η) : o.invert.next = o.next := rfl

@[simp]
theorem Outcome.world_invert (o : Outcome σ η) : o.invert.world = o.world := rfl

namespace Machine

/-- Children with success and failure exchanged in what they answer. -/
def inverted (m : Machine γ η) : Machine γ η :=
  { m with tick := fun now c w => (m.tick now c w).invert }

@[simp]
theorem tick_inverted (m : Machine γ η) (now : Moment) (c : γ) (w : World η) :
    m.inverted.tick now c w = (m.tick now c w).invert := rfl

@[simp]
theorem resetAll_inverted (m : Machine γ η) (cs : List γ) (w : World η) :
    m.inverted.resetAll cs w = m.resetAll cs w := rfl

end Machine

namespace Ordered

theorem walk_inverted (m : Machine γ η) (goOn : Status) (now : Moment) (cursor : Nat)
    (cs : List γ) (w : World η) :
    walk m.inverted goOn now cursor cs w = (walk m goOn.invert now cursor cs w).invert := by
  induction cs generalizing cursor w with
  | nil => cases cursor <;> simp [walk, Outcome.invert]
  | cons c cs ih =>
    cases cursor with
    | succ cursor => simp only [walk, ih cursor w, Outcome.invert]
    | zero =>
      simp only [walk, Machine.tick_inverted, Outcome.status_invert, Outcome.next_invert,
        Outcome.world_invert, Status.invert_eq_iff, ih 0]
      split <;> rfl

/-- One tick over inverted children is the dual tick, inverted.  An inversion keeps a running child
    running, so both keep their cursor, or reset their children, on the same ticks. -/
theorem tick_inverted (m : Machine γ η) (goOn : Status) (now : Moment) (cursor : Nat)
    (cs : List γ) (w : World η) :
    tick m.inverted goOn now cursor cs w = (tick m goOn.invert now cursor cs w).invert := by
  have hrunning (s : Status) : s.invert = .running ↔ s = .running := Status.invert_eq_iff
  simp only [tick, walk_inverted, Outcome.status_invert, Outcome.next_invert,
    Outcome.world_invert, Machine.resetAll_inverted, hrunning]
  split <;> rfl

end Ordered

end BehaviorTree
