import BehaviorTree.Control.Machine

namespace BehaviorTree

/-!
# Children one after the other

A sequence and a selector both walk along their children from a cursor on, and go on as long as
the children give one answer: success for a sequence, failure for a selector.  A running child
stops the walk and is resumed on the next tick; any other answer ends the run, which resets every
child and the cursor.
-/

namespace Ordered

variable {γ η : Type}

/-- The walk from child `cursor` on.  Its answer is `goOn` exactly when it passed the last child,
    and otherwise that of the child at the cursor where it stopped. -/
def walk (m : Machine γ η) (goOn : Status) (now : Moment) :
    Nat → List γ → World η → Outcome (Nat × List γ) η
  | cursor, [], w => ⟨goOn, (cursor, []), w⟩
  | cursor + 1, c :: cs, w =>
    let o := walk m goOn now cursor cs w
    ⟨o.status, (o.next.1 + 1, c :: o.next.2), o.world⟩
  | 0, c :: cs, w =>
    let o := m.tick now c w
    if o.status = goOn then
      let r := walk m goOn now 0 cs o.world
      ⟨r.status, (r.next.1 + 1, o.next :: r.next.2), r.world⟩
    else ⟨o.status, (0, o.next :: cs), o.world⟩

/-- One tick: a walk that keeps its cursor while a child runs, and a reset at the end of a
    run. -/
def tick (m : Machine γ η) (goOn : Status) (now : Moment) (cursor : Nat) (cs : List γ)
    (w : World η) : Outcome (Nat × List γ) η :=
  let o := walk m goOn now cursor cs w
  if o.status = .running then o
  else
    let (cs, w) := m.resetAll o.next.2 o.world
    ⟨o.status, (0, cs), w⟩

end Ordered

end BehaviorTree
