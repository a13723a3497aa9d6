import BehaviorTree.Leaf.Builtin
import BehaviorTree.Proofs.Replay

namespace BehaviorTree

/-!
# Settings and progress of the leaves of the library

A leaf of the library is what it was told to do and how far it has come.  Only the pause has
progress of its own: the time of its first tick.

* `Builtin.eq_of_parts` — settings and progress together are the whole leaf;
* `Builtin.restart_eq_start` — a reset leads back to the leaf that was never ticked;
* `Builtin.settings_tick` — a tick changes no setting;
* `Builtin.settling_configure` — of the properties that a leaf was given, the last one under each key
  counts, and their order does not matter.
-/

namespace Builtin

/-- What a leaf was told to do. -/
inductive Settings where
  | constant (status : Status)
  | wait (duration : Float)
  | setValue (key : Option String) (value : Option PropertyValue)
  | log (message : String) (level : Log.Level)
  | hasValue (key : Option String)
  | valueEquals (key : Option String) (value : Option PropertyValue)
deriving DecidableEq, Repr

/-- The settings of a leaf. -/
def settings : Builtin → Settings
  | .constant status => .constant status
  | .wait duration _ => .wait duration
  | .setValue key value => .setValue key value
  | .log message level => .log message level
  | .hasValue key => .hasValue key
  | .valueEquals key value => .valueEquals key value

/-- When the work of a leaf began, if it goes on. -/
def startedAt : Builtin → Option Float
  | .wait _ startedAt => startedAt
  | _ => none

/-- The leaf with these settings that was never ticked. -/
def Settings.start : Settings → Builtin
  | .constant status => .constant status
  | .wait duration => .wait duration none
  | .setValue key value => .setValue key value
  | .log message level => .log message level
  | .hasValue key => .hasValue key
  | .valueEquals key value => .valueEquals key value

theorem eq_of_parts {a b : Builtin} (hsettings : a.settings = b.settings)
    (hstarted : a.startedAt = b.startedAt) : a = b := by
  cases a <;> cases b <;> simp_all [settings, startedAt]

@[simp]
theorem settings_start (s : Settings) : s.start.settings = s := by cases s <;> rfl

@[simp]
theorem settings_restart (b : Builtin) : b.restart.settings = b.settings := by cases b <;> rfl

/-- A leaf after a reset is one that was never ticked. -/
theorem restart_eq_start (b : Builtin) : b.restart = b.settings.start := by cases b <;> rfl

@[simp]
theorem settings_tick {η : Type} (now : Moment) (b : Builtin) (w : World η) :
    (b.tick now w).next.settings = b.settings := by
  cases b with
  | constant status => rfl
  | wait duration startedAt =>
    simp only [tick]
    split <;> rfl
  | setValue key value => cases key <;> cases value <;> rfl
  | log message level => rfl
  | hasValue key => rfl
  | valueEquals key value => cases key <;> cases value <;> rfl

/-- A property changes settings only. -/
@[simp]
theorem startedAt_configure (key : String) (value : PropertyValue) (b : Builtin) :
    (b.configure key value).startedAt = b.startedAt := by
  cases b <;> simp only [configure] <;> (repeat' split) <;> rfl

@[simp]
theorem startedAt_start (s : Settings) : s.start.startedAt = none := by cases s <;> rfl

@[simp]
theorem startedAt_restart (b : Builtin) : b.restart.startedAt = none := by cases b <;> rfl

theorem settling_configure : Dict.Settling configure where
  again key v w b := by cases b <;> grind [configure]
  swap hne v w b := by cases b <;> grind [configure]

end Builtin

end BehaviorTree
