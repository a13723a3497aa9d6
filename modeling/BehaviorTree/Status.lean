namespace BehaviorTree

/-!
# The answer of a tick

A node answers each tick with `running`, or ends its run with `success` or `failure`.
-/

/-- What a node answers when it is ticked. -/
inductive Status where
  | running
  | success
  | failure
deriving DecidableEq, Repr

namespace Status

/-- The two answers that end a run. -/
def isTerminal : Status → Bool
  | .running => false
  | _ => true

/-- Success and failure exchanged. -/
def invert : Status → Status
  | .running => .running
  | .success => .failure
  | .failure => .success

/-- Success exactly when `ok` holds. -/
def ofBool (ok : Bool) : Status := if ok then .success else .failure

/-- The name of an answer. -/
def name : Status → String
  | .running => "Running"
  | .success => "Success"
  | .failure => "Failure"

/-- The answer with a given name. -/
def ofName? : String → Option Status
  | "Running" => some .running
  | "Success" => some .success
  | "Failure" => some .failure
  | _ => none

@[simp]
theorem invert_invert (s : Status) : s.invert.invert = s := by cases s <;> rfl

theorem invert_ne_self {s : Status} (h : s ≠ .running) : s.invert ≠ s := by
  cases s with
  | running => exact absurd rfl h
  | success | failure => exact nofun

@[simp]
theorem isTerminal_invert (s : Status) : s.invert.isTerminal = s.isTerminal := by
  cases s <;> rfl

@[simp]
theorem isTerminal_ofBool (ok : Bool) : (ofBool ok).isTerminal = true := by cases ok <;> rfl

theorem isTerminal_eq_false_iff {s : Status} : s.isTerminal = false ↔ s = .running := by
  cases s <;> simp [isTerminal]

@[simp]
theorem ofName?_name (s : Status) : ofName? s.name = some s := by cases s <;> rfl

end Status

end BehaviorTree
