import BehaviorTree.Control.Ordered
import BehaviorTree.Control.Parallel
import BehaviorTree.Control.Repeat
import BehaviorTree.Control.Retry
import BehaviorTree.Control.Timeout

namespace BehaviorTree

/-!
# Control

What an inner node of a tree is: its kind, its settings and how far it has come.  `Control.tick`
is one tick of an inner node over children of any type.
-/

/-- A node that the host defines: how many children it takes, and its answer to theirs. -/
structure Custom where
  capacity : Option Nat
  verdict : List Status → Status

/-- The kind, the settings and the progress of an inner node. -/
inductive Control where
  /-- Children in order, until one fails. -/
  | sequence (cursor : Nat)
  /-- Children in order, until one succeeds. -/
  | selector (cursor : Nat)
  /-- All children on every tick. -/
  | parallel (settings : Parallel)
  /-- Success and failure exchanged. -/
  | inverter
  /-- The child again and again. -/
  | repeater (settings : Repeat) (count : UInt32)
  /-- The child again after a failure. -/
  | retry (settings : Retry) (progress : Retry.Progress)
  /-- The child for a limited time. -/
  | timeout (settings : Timeout) (startedAt : Option Float)
  /-- All children on every tick, with the host's answer. -/
  | custom (settings : Custom)

namespace Control

variable {γ η : Type}

/-- The kind of a node with this control. -/
def kind : Control → Kind
  | .sequence _ => .sequence
  | .selector _ => .selector
  | .parallel _ => .parallel
  | .inverter => .inverter
  | .repeater .. => .repeater
  | .retry .. => .retry
  | .timeout .. => .timeout
  | .custom _ => .custom

/-- The control of a new node. -/
def fresh : InnerKind → Control
  | .sequence => .sequence 0
  | .selector => .selector 0
  | .parallel => .parallel .fresh
  | .inverter => .inverter
  | .repeater => .repeater {} 0
  | .retry => .retry {} {}
  | .timeout => .timeout {} none

/-- How many children a node takes; without a number, any. -/
def capacity : Control → Option Nat
  | .sequence _ | .selector _ | .parallel _ => none
  | .inverter | .repeater .. | .retry .. | .timeout .. => some 1
  | .custom settings => settings.capacity

/-- Whether the control is one of the library's own. -/
def isBuiltin : Control → Bool
  | .custom _ => false
  | _ => true

/-- The control at the start of a run. -/
def restart : Control → Control
  | .sequence _ => .sequence 0
  | .selector _ => .selector 0
  | .parallel settings => .parallel settings
  | .inverter => .inverter
  | .repeater settings _ => .repeater settings 0
  | .retry settings _ => .retry settings {}
  | .timeout settings _ => .timeout settings none
  | .custom settings => .custom settings

/-- The control after its run was abandoned.  The cursors stay where they are. -/
def abandon : Control → Control
  | .repeater settings _ => .repeater settings 0
  | .retry settings _ => .retry settings {}
  | .timeout settings _ => .timeout settings none
  | control => control

/-- The control with a property. -/
def configure (key : String) (value : PropertyValue) : Control → Control
  | .parallel settings => .parallel (settings.configure key value)
  | .repeater settings count => .repeater (settings.configure key value) count
  | .retry settings progress => .retry (settings.configure key value) progress
  | .timeout settings startedAt => .timeout (settings.configure key value) startedAt
  | control => control

/-- One tick of a node called `name`. -/
def tick (m : Machine γ η) (name : String) (now : Moment) :
    Control → List γ → World η → Outcome (Control × List γ) η
  | .sequence cursor, cs, w =>
    (Ordered.tick m .success now cursor cs w).map fun r => (.sequence r.1, r.2)
  | .selector cursor, cs, w =>
    (Ordered.tick m .failure now cursor cs w).map fun r => (.selector r.1, r.2)
  | .parallel settings, cs, w =>
    (Parallel.tick m now settings cs w).map fun cs => (.parallel settings, cs)
  | .inverter, cs, w =>
    (Inverter.tick m name now cs w).map fun cs => (.inverter, cs)
  | .repeater settings count, cs, w =>
    (Repeat.tick m name now settings count cs w).map fun r => (.repeater settings r.1, r.2)
  | .retry settings progress, cs, w =>
    (Retry.tick m name now settings progress cs w).map fun r => (.retry settings r.1, r.2)
  | .timeout settings startedAt, cs, w =>
    (Timeout.tick m name now settings startedAt cs w).map fun r => (.timeout settings r.1, r.2)
  | .custom settings, cs, w =>
    let (answers, cs, w) := m.tickAll now cs w
    ⟨settings.verdict answers, (.custom settings, cs), w⟩

@[simp]
theorem kind_fresh (k : InnerKind) : (fresh k).kind = k.kind := by cases k <;> rfl

@[simp]
theorem kind_restart (c : Control) : c.restart.kind = c.kind := by cases c <;> rfl

@[simp]
theorem kind_abandon (c : Control) : c.abandon.kind = c.kind := by cases c <;> rfl

@[simp]
theorem kind_configure (key : String) (value : PropertyValue) (c : Control) :
    (c.configure key value).kind = c.kind := by cases c <;> rfl

@[simp]
theorem restart_restart (c : Control) : c.restart.restart = c.restart := by cases c <;> rfl

end Control

end BehaviorTree
