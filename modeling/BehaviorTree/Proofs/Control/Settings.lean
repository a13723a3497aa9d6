import BehaviorTree.Control.Basic
import BehaviorTree.Proofs.Replay

namespace BehaviorTree

/-!
# Settings and progress of a control

A control is what a node was told to do and how far it has come.  `Control.settings` is the first
part and `Control.progress` the second; together they are the whole control (`Control.eq_of_parts`).

* `Control.Settings.start` — the control of a node that was never ticked;
* `Control.restart_eq_start` — a reset leads back to exactly that control;
* `Control.abandon_eq_restart_iff` — a cancellation does so unless a cursor has moved;
* `Control.settling_configure` — of the properties that a node was given, the last one under each key
  counts, and their order does not matter.
-/

open Dict (Settling)

namespace Control

/-- What an inner node was told to do. -/
inductive Settings where
  | sequence
  | selector
  | parallel (settings : Parallel)
  | inverter
  | repeater (settings : Repeat)
  | retry (settings : Retry)
  | timeout (settings : Timeout)
  | custom (settings : Custom)

/-- How far an inner node has come. -/
inductive Progress where
  /-- The node keeps no progress of its own. -/
  | nothing
  | cursor (child : Nat)
  | completed (count : UInt32)
  | retried (progress : Retry.Progress)
  | begun (startedAt : Option Float)
deriving DecidableEq

/-- The settings of a control. -/
def settings : Control → Settings
  | .sequence _ => .sequence
  | .selector _ => .selector
  | .parallel settings => .parallel settings
  | .inverter => .inverter
  | .repeater settings _ => .repeater settings
  | .retry settings _ => .retry settings
  | .timeout settings _ => .timeout settings
  | .custom settings => .custom settings

/-- The progress of a control. -/
def progress : Control → Progress
  | .sequence cursor | .selector cursor => .cursor cursor
  | .parallel _ | .inverter | .custom _ => .nothing
  | .repeater _ count => .completed count
  | .retry _ progress => .retried progress
  | .timeout _ startedAt => .begun startedAt

/-- The control of a node with these settings that was never ticked. -/
def Settings.start : Settings → Control
  | .sequence => .sequence 0
  | .selector => .selector 0
  | .parallel settings => .parallel settings
  | .inverter => .inverter
  | .repeater settings => .repeater settings 0
  | .retry settings => .retry settings { failures := 0, waitingSince := none }
  | .timeout settings => .timeout settings none
  | .custom settings => .custom settings

/-- The position of a cursor; a control without one stands at its first child. -/
def cursor : Control → Nat
  | .sequence cursor | .selector cursor => cursor
  | _ => 0

theorem eq_of_parts {c d : Control} (hsettings : c.settings = d.settings)
    (hprogress : c.progress = d.progress) : c = d := by
  cases c <;> cases d <;> simp_all [settings, progress]

@[simp]
theorem settings_start (s : Settings) : s.start.settings = s := by cases s <;> rfl

@[simp]
theorem settings_restart (c : Control) : c.restart.settings = c.settings := by cases c <;> rfl

@[simp]
theorem settings_abandon (c : Control) : c.abandon.settings = c.settings := by cases c <;> rfl

/-- A control after a reset is that of a node that was never ticked. -/
theorem restart_eq_start (c : Control) : c.restart = c.settings.start := by cases c <;> rfl

/-- The controls of new nodes are controls that were never ticked. -/
theorem fresh_eq_start (k : InnerKind) : fresh k = (fresh k).settings.start := by cases k <;> rfl

/-- A property changes settings only. -/
@[simp]
theorem progress_configure (key : String) (value : PropertyValue) (c : Control) :
    (c.configure key value).progress = c.progress := by cases c <;> rfl

/-- Nor does it change where a node starts. -/
theorem progress_start_configure (key : String) (value : PropertyValue) (c : Control) :
    (c.configure key value).settings.start.progress = c.settings.start.progress := by
  cases c <;> rfl

/-- A cancellation returns a control to its start exactly when its cursor is there already. -/
theorem abandon_eq_restart_iff (c : Control) : c.abandon = c.restart ↔ c.cursor = 0 := by
  cases c <;> simp [abandon, restart, cursor]

end Control

/-! ### Properties one after the other -/

theorem Parallel.settling_configure : Settling Parallel.configure where
  again key v w s := by grind [Parallel.configure]
  swap hne v w s := by grind [Parallel.configure]

theorem Repeat.settling_configure : Settling Repeat.configure where
  again key v w s := by grind [Repeat.configure]
  swap hne v w s := by grind [Repeat.configure]

theorem Retry.settling_configure : Settling Retry.configure where
  again key v w s := by grind [Retry.configure]
  swap hne v w s := by grind [Retry.configure]

theorem Timeout.settling_configure : Settling Timeout.configure where
  again key v w s := by grind [Timeout.configure]
  swap hne v w s := by grind [Timeout.configure]

/-- A value that a control cannot use leads back to the default, and not to the value before it, so
    that nothing of an overwritten property is left. -/
theorem Control.settling_configure : Settling Control.configure where
  again key v w c := by
    cases c with
    | parallel s => simp only [configure, Parallel.settling_configure.again]
    | repeater s count => simp only [configure, Repeat.settling_configure.again]
    | retry s progress => simp only [configure, Retry.settling_configure.again]
    | timeout s startedAt => simp only [configure, Timeout.settling_configure.again]
    | sequence | selector | inverter | custom => rfl
  swap hne v w c := by
    cases c with
    | parallel s => simp only [configure, Parallel.settling_configure.swap hne]
    | repeater s count => simp only [configure, Repeat.settling_configure.swap hne]
    | retry s progress => simp only [configure, Retry.settling_configure.swap hne]
    | timeout s startedAt => simp only [configure, Timeout.settling_configure.swap hne]
    | sequence | selector | inverter | custom => rfl

end BehaviorTree
