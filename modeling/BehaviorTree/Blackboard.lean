import BehaviorTree.Dict
import BehaviorTree.Event

namespace BehaviorTree

/-!
# The blackboard

The store that the nodes of a tree share: a dictionary of values of several types.  A typed
read answers nothing both for an absent key and for a value of another type, and tells the two
apart only by the event `mismatch?`.
-/

/-- A dictionary of values. -/
abbrev Blackboard := Dict Value

/-- A key that fixes the type of the value under it. -/
structure Key (α : Type) where
  name : String
deriving DecidableEq, Repr

namespace Blackboard

variable {α : Type} [Storable α]

/-- Stores a value, whatever was under the key before. -/
def put (bb : Blackboard) (key : String) (a : α) : Blackboard :=
  bb.insert key (Storable.store a)

/-- The value under a key, if it has the type asked for. -/
def load? (α : Type) [Storable α] (bb : Blackboard) (key : String) : Option α :=
  (bb.get? key).bind Storable.load?

/-- The event of a read that finds a value of another type. -/
def mismatch? (α : Type) [Storable α] (bb : Blackboard) (key : String) : Option Event :=
  match bb.get? key, bb.load? α key with
  | some _, none => some (.typeMismatch key (Storable.type α))
  | _, _ => none

/-- Replaces the value under a key if it has the type of the new one. -/
def assign? (bb : Blackboard) (key : String) (a : α) : Option Blackboard :=
  (bb.load? α key).map fun _ => bb.put key a

/-- Takes the value under a key out, if it has the type asked for. -/
def take? (α : Type) [Storable α] (bb : Blackboard) (key : String) : Option (α × Blackboard) :=
  (bb.load? α key).map fun a => (a, bb.erase key)

/-- The keys as a set of quoted texts. -/
def describe (bb : Blackboard) : String :=
  "\x7b" ++ ", ".intercalate (bb.keys.map Text.quote) ++ "\x7d"

@[simp]
theorem load?_put_self (bb : Blackboard) (key : String) (a : α) :
    (bb.put key a).load? α key = some a := by
  simp [put, load?]

theorem load?_put_of_ne (bb : Blackboard) {key other : String} (h : other ≠ key) (a : α)
    (β : Type) [Storable β] : (bb.put key a).load? β other = bb.load? β other := by
  simp [put, load?, Dict.get?_insert_of_ne _ h]

theorem load?_eq_some_iff {bb : Blackboard} {key : String} {a : α} :
    bb.load? α key = some a ↔ bb.get? key = some (Storable.store a) := by
  simp [load?, Option.bind_eq_some_iff, Storable.load?_eq_some_iff]

theorem mismatch?_eq_none_of_absent {bb : Blackboard} {key : String} (h : bb.get? key = none) :
    bb.mismatch? α key = none := by
  simp [mismatch?, h]

end Blackboard

/-! ### Host objects -/

/-- The objects of the host that a blackboard can refer to: those still alive, each with a number
    of its own. -/
structure Objects (α : Type) where
  alive : List (Nat × α)
  next : Nat

namespace Objects

variable {α : Type}

/-- No object yet. -/
def empty : Objects α := ⟨[], 0⟩

/-- A new object. -/
def create (os : Objects α) (a : α) : Nat × Objects α :=
  (os.next, ⟨os.alive ++ [(os.next, a)], os.next + 1⟩)

/-- Ends the life of an object. -/
def drop (os : Objects α) (object : Nat) : Objects α :=
  { os with alive := os.alive.filter (·.1 ≠ object) }

/-- The object of a reference, while it is alive. -/
def resolve? (os : Objects α) {t : ObjectType} (r : Reference t) : Option α :=
  (os.alive.find? (·.1 = r.object)).map Prod.snd

end Objects

end BehaviorTree
