import BehaviorTree.Control.Machine

namespace BehaviorTree

/-!
# Decorators

What the nodes around a single child have in common, and the simplest of them, the inverter.  A
decorator acts on its first child; without a child it reports that and fails.
-/

/-- The record of a decorator without a child. -/
def childMissing (name : String) : Log.Record where
  level := .error
  category := "bt.decorator"
  node := some name
  line := none
  message := "decorator has no child"

/-- A count in a word, which stays at the greatest word once it is there. -/
def bump (n : UInt32) : UInt32 := if n = UInt32.ofNat (UInt32.size - 1) then n else n + 1

/-- An integer moved down into the range of words; a negative one is none. -/
def toWord? (n : Int64) : Option UInt32 :=
  if n < 0 then none else some (UInt32.ofNat (min n.toInt.toNat (UInt32.size - 1)))

theorem toNat_bump (n : UInt32) : (bump n).toNat = min (n.toNat + 1) (UInt32.size - 1) := by
  unfold bump
  have hn := n.toNat_lt
  split
  · rename_i h
    subst h
    decide
  · rename_i h
    have hne : n.toNat ≠ UInt32.size - 1 := fun he => h (UInt32.toNat.inj (by simpa using he))
    rw [UInt32.toNat_add]
    simp only [UInt32.size] at hne ⊢
    have : (1 : UInt32).toNat = 1 := rfl
    omega

namespace Inverter

variable {γ η : Type}

/-- One tick: the child's answer with success and failure exchanged. -/
def tick (m : Machine γ η) (name : String) (now : Moment) :
    List γ → World η → Outcome (List γ) η
  | [], w => ⟨.failure, [], w.emit (childMissing name)⟩
  | c :: cs, w =>
    let o := m.tick now c w
    ⟨o.status.invert, o.next :: cs, o.world⟩

end Inverter

end BehaviorTree
