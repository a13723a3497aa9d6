import BehaviorTree.Leaf.Behavior

namespace BehaviorTree

/-!
# The leaves of the library

Six leaves that work for every host: a constant answer, a pause, a write to the blackboard, a log
message and two questions to the blackboard.  Only the pause has progress of its own.
-/

/-- A leaf of the library, with its settings. -/
inductive Builtin where
  /-- Answers `status` on every tick. -/
  | constant (status : Status)
  /-- Runs until `duration` seconds have passed since its first tick. -/
  | wait (duration : Float) (startedAt : Option Float)
  /-- Writes `value` under `key`. -/
  | setValue (key : Option String) (value : Option PropertyValue)
  /-- Reports a message and succeeds. -/
  | log (message : String) (level : Log.Level)
  /-- Succeeds when there is something under `key`. -/
  | hasValue (key : Option String)
  /-- Succeeds when what is under `key` equals `value`. -/
  | valueEquals (key : Option String) (value : Option PropertyValue)
deriving DecidableEq, Repr

namespace Builtin

/-! ### Fresh leaves -/

/-- The pause of a `wait` without a duration, in seconds. -/
def defaultDuration : Float := 1.0

/-- A pause of the default length. -/
def pause : Builtin := .wait defaultDuration none

/-- A pause; a length that is not positive is none. -/
def pauseFor (seconds : Float) : Builtin := .wait (atLeast 0.0 seconds) none

/-- A write without key and value yet. -/
def write : Builtin := .setValue none none

/-- A message without words yet. -/
def report : Builtin := .log "" .info

/-- A question for the presence of a key, without the key yet. -/
def present : Builtin := .hasValue none

/-- A question for a value, without key and value yet. -/
def equal : Builtin := .valueEquals none none

/-! ### Ticks -/

/-- The record of a `setValue` leaf that misses a property. -/
def incompleteWrite : Log.Record where
  level := .error
  category := "bt.leaf"
  node := none
  line := none
  message := "SetValue needs both 'key' and 'value'"

/-- The record of a `log` leaf. -/
def reported (message : String) (level : Log.Level) : Log.Record where
  level := level
  category := "bt.leaf.log"
  node := none
  line := none
  message := message

/-- Writes a property value to the blackboard: texts as texts, numbers as reals. -/
def storeProperty {η : Type} (w : World η) (key : String) : PropertyValue → World η
  | .text s => w.put key s
  | .number x => w.put key x

/-- Whether what is under `key` equals `expected`, and the world after the reads.  The types are
    tried one after the other, and the conversion of `expected` goes by the type found. -/
def matching {η : Type} (w : World η) (key : String) (expected : PropertyValue) : Bool × World η :=
  match w.read String key with
  | (some s, w) => (expected.render == s, w)
  | (none, w) =>
    match w.read Float key with
    | (some x, w) => (expected.asReal?.any (· == x), w)
    | (none, w) =>
      match w.read Int64 key with
      | (some n, w) => (expected.asInteger? == some n, w)
      | (none, w) =>
        match w.read Bool key with
        | (some b, w) => (expected.asFlag? == some b, w)
        | (none, w) => (false, w)

/-- One tick of a leaf. -/
def tick {η : Type} (now : Moment) : Builtin → World η → Outcome Builtin η
  | .constant status, w => ⟨status, .constant status, w⟩
  | .wait duration startedAt, w =>
    let start := startedAt.getD now.now
    if duration ≤ now.elapsed start then ⟨.success, .wait duration none, w⟩
    else ⟨.running, .wait duration (some start), w⟩
  | .setValue (some key) (some value), w =>
    ⟨.success, .setValue (some key) (some value), storeProperty w key value⟩
  | .setValue key value, w => ⟨.failure, .setValue key value, w.emit incompleteWrite⟩
  | .log message level, w =>
    ⟨.success, .log message level, w.emit (reported message level)⟩
  | .hasValue key, w =>
    ⟨.ofBool (key.any w.blackboard.contains), .hasValue key, w⟩
  | .valueEquals (some key) (some value), w =>
    let (ok, w) := matching w key value
    ⟨.ofBool ok, .valueEquals (some key) (some value), w⟩
  | .valueEquals key value, w => ⟨.failure, .valueEquals key value, w⟩

/-! ### Progress and settings -/

/-- The leaf at the start of its work. -/
def restart : Builtin → Builtin
  | .wait duration _ => .wait duration none
  | leaf => leaf

/-- The leaf with a property. -/
def configure (key : String) (value : PropertyValue) : Builtin → Builtin
  | .wait duration startedAt =>
    if key = "duration" then
      .wait ((value.asReal?.filter (0.0 ≤ ·)).getD defaultDuration) startedAt
    else .wait duration startedAt
  | .setValue k v =>
    if key = "key" then .setValue value.asText? v
    else if key = "value" then .setValue k (some value)
    else .setValue k v
  | .log message level =>
    if key = "message" then .log value.render level
    else if key = "level" then .log message ((value.asText?.bind Log.Level.ofWord?).getD .info)
    else .log message level
  | .hasValue k => if key = "key" then .hasValue value.asText? else .hasValue k
  | .valueEquals k v =>
    if key = "key" then .valueEquals value.asText? v
    else if key = "value" then .valueEquals k (some value)
    else .valueEquals k v
  | .constant status => .constant status

instance {η : Type} : Behavior Builtin η where
  tick now _ leaf w := leaf.tick now w
  reset leaf h := (leaf.restart, h)
  cancel leaf h := (leaf.restart, h)
  configure key value leaf h := (leaf.configure key value, h)

@[simp]
theorem restart_restart (leaf : Builtin) : leaf.restart.restart = leaf.restart := by
  cases leaf <;> rfl

end Builtin

end BehaviorTree
