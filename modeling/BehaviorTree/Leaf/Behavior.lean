import BehaviorTree.Agent
import BehaviorTree.PropertyValue
import BehaviorTree.Time
import BehaviorTree.World

namespace BehaviorTree

/-!
# Behaviours of leaves

What a leaf does is open: any type with a `Behavior` instance can stand in a tree.  A leaf acts on
the world only in a tick; a reset, a cancellation and a property reach it together with the
host's own state, so that a host can watch them, but not with the blackboard.
-/

/-- The result of a tick: the answer, what was ticked as it is afterwards, and the world. -/
structure Outcome (σ η : Type) where
  status : Status
  next : σ
  world : World η

/-- Changes what was ticked. -/
def Outcome.map {σ τ η : Type} (f : σ → τ) (o : Outcome σ η) : Outcome τ η :=
  ⟨o.status, f o.next, o.world⟩

/-- The types of leaves that a tree can hold over hosts with state `η`. -/
class Behavior (β η : Type) where
  /-- Advances the leaf by one tick. -/
  tick : Moment → Option Agent → β → World η → Outcome β η
  /-- Returns the leaf to the start of its work. -/
  reset : β → η → β × η
  /-- Tells a leaf that its run is abandoned. -/
  cancel : β → η → β × η
  /-- Gives the leaf a property; a leaf ignores the properties that it does not know. -/
  configure : String → PropertyValue → β → η → β × η

/-- Leaves of two types in one tree. -/
instance {α β η : Type} [Behavior α η] [Behavior β η] : Behavior (α ⊕ β) η where
  tick now agent
    | .inl a, w => (Behavior.tick now agent a w).map .inl
    | .inr b, w => (Behavior.tick now agent b w).map .inr
  reset
    | .inl a, h => (Behavior.reset a h).map .inl id
    | .inr b, h => (Behavior.reset b h).map .inr id
  cancel
    | .inl a, h => (Behavior.cancel a h).map .inl id
    | .inr b, h => (Behavior.cancel b h).map .inr id
  configure key value
    | .inl a, h => (Behavior.configure key value a h).map .inl id
    | .inr b, h => (Behavior.configure key value b h).map .inr id

end BehaviorTree
