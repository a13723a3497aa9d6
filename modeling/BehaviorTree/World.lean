import BehaviorTree.Blackboard

namespace BehaviorTree

/-!
# The world of a tick

What a tick can read and change beside the tree itself: the blackboard, the records that reached
the host's collector, the diagnostic events, and a state of the host's own that its leaves use.

* `World.emit` delivers a record: to the history and to the sink of the blackboard, and to the
  diagnostics when there is no sink.
* `World.read` is a typed read that tells of a mismatch.
-/

/-- What the nodes of a tree share. -/
structure World (η : Type) where
  blackboard : Blackboard
  /-- The records that reached the host's collector, oldest first. -/
  received : List Log.Record
  /-- The diagnostic events, oldest first. -/
  events : List Event
  /-- The state of the host. -/
  host : η

/-- The key of the history that buffers records. -/
def historyKey : Key Log.History := ⟨"grove.log.history"⟩

/-- The key of the sink that records go to. -/
def sinkKey : Key Sink := ⟨"grove.log.sink"⟩

namespace World

variable {η : Type}

/-- An empty blackboard, and nothing said yet. -/
def start (host : η) : World η := ⟨.empty, [], [], host⟩

/-- Tells events. -/
def tell (w : World η) (es : List Event) : World η := { w with events := w.events ++ es }

/-- Changes the state of the host, with an answer. -/
def atHost {α : Type} (w : World η) (f : η → α × η) : α × World η :=
  ((f w.host).1, { w with host := (f w.host).2 })

/-- Stores a value on the blackboard. -/
def put {α : Type} [Storable α] (w : World η) (key : String) (a : α) : World η :=
  { w with blackboard := w.blackboard.put key a }

/-- A typed read, which tells when it finds a value of another type. -/
def read (α : Type) [Storable α] (w : World η) (key : String) : Option α × World η :=
  (w.blackboard.load? α key, w.tell (w.blackboard.mismatch? α key).toList)

/-- Adds a record to the history on the blackboard, if there is one. -/
def remember (w : World η) (r : Log.Record) : World η :=
  match w.blackboard.load? Log.History historyKey.name with
  | some h => w.put historyKey.name (h.push r)
  | none => w

/-- Hands a record to a sink. -/
def deliver (w : World η) (r : Log.Record) : Sink → World η
  | .collector => { w with received := w.received ++ [r] }
  | .discard => w
  | .diagnostics => w.tell [.record r]

/-- Reports a record: to the history and to the sink on the blackboard.  Without a sink the record
    goes to the diagnostics. -/
def emit (w : World η) (r : Log.Record) : World η :=
  (w.remember r).deliver r ((w.blackboard.load? Sink sinkKey.name).getD .diagnostics)

@[simp]
theorem host_tell (w : World η) (es : List Event) : (w.tell es).host = w.host := rfl

@[simp]
theorem blackboard_tell (w : World η) (es : List Event) :
    (w.tell es).blackboard = w.blackboard := rfl

@[simp]
theorem host_emit (w : World η) (r : Log.Record) : (w.emit r).host = w.host := by
  unfold emit deliver remember
  split <;> split <;> rfl

@[simp]
theorem blackboard_deliver (w : World η) (r : Log.Record) (s : Sink) :
    (w.deliver r s).blackboard = w.blackboard := by
  cases s <;> rfl

end World

end BehaviorTree
