import BehaviorTree.Log.History

namespace BehaviorTree

/-!
# Values on the blackboard

A blackboard holds values of several types, and a reader names the type that it expects.  The
types never mix: a word is not an integer, and an integer is not a real.

`Storable α` ties a type of the library to the values that hold it: `load?` finds an `α` exactly
in the values that `store` makes.
-/

/-- Where the records of a tree go. -/
inductive Sink where
  /-- The host's list of received records. -/
  | collector
  /-- Nowhere. -/
  | discard
  /-- The diagnostic events. -/
  | diagnostics
deriving DecidableEq, Repr

/-- The types of host objects that a blackboard can refer to. -/
inductive ObjectType where
  | text
  | word
deriving DecidableEq, Repr

/-- A reference to a host object, which does not keep the object alive. -/
structure Reference (t : ObjectType) where
  object : Nat
deriving DecidableEq, Repr

/-- A value on a blackboard. -/
inductive Value where
  | text (s : String)
  | real (x : Float)
  /-- A signed word of 64 bits. -/
  | integer (n : Int64)
  /-- An unsigned word of 32 bits. -/
  | word (n : UInt32)
  | flag (b : Bool)
  | history (h : Log.History)
  | sink (s : Sink)
  | reference (t : ObjectType) (r : Reference t)

/-- The type of a value. -/
inductive ValueType where
  | text
  | real
  | integer
  | word
  | flag
  | history
  | sink
  | reference (t : ObjectType)
deriving DecidableEq, Repr

namespace Value

/-- The type of a value. -/
def type : Value → ValueType
  | .text _ => .text
  | .real _ => .real
  | .integer _ => .integer
  | .word _ => .word
  | .flag _ => .flag
  | .history _ => .history
  | .sink _ => .sink
  | .reference t _ => .reference t

/-- A reference of a given type. -/
def asReference? (t : ObjectType) : Value → Option (Reference t)
  | .reference t' r => if h : t' = t then some (h ▸ r) else none
  | _ => none

end Value

/-- Types whose members can stand on a blackboard. -/
class Storable (α : Type) where
  type : ValueType
  store : α → Value
  load? : Value → Option α
  type_store : ∀ a, (store a).type = type
  load?_eq_some_iff : ∀ v a, load? v = some a ↔ v = store a

namespace Storable

instance : Storable String where
  type := .text
  store := .text
  load? | .text s => some s | _ => none
  type_store _ := rfl
  load?_eq_some_iff v a := by cases v <;> simp

instance : Storable Float where
  type := .real
  store := .real
  load? | .real x => some x | _ => none
  type_store _ := rfl
  load?_eq_some_iff v a := by cases v <;> simp

instance : Storable Int64 where
  type := .integer
  store := .integer
  load? | .integer n => some n | _ => none
  type_store _ := rfl
  load?_eq_some_iff v a := by cases v <;> simp

instance : Storable UInt32 where
  type := .word
  store := .word
  load? | .word n => some n | _ => none
  type_store _ := rfl
  load?_eq_some_iff v a := by cases v <;> simp

instance : Storable Bool where
  type := .flag
  store := .flag
  load? | .flag b => some b | _ => none
  type_store _ := rfl
  load?_eq_some_iff v a := by cases v <;> simp

instance : Storable Log.History where
  type := .history
  store := .history
  load? | .history h => some h | _ => none
  type_store _ := rfl
  load?_eq_some_iff v a := by cases v <;> simp

instance : Storable Sink where
  type := .sink
  store := .sink
  load? | .sink s => some s | _ => none
  type_store _ := rfl
  load?_eq_some_iff v a := by cases v <;> simp

instance (t : ObjectType) : Storable (Reference t) where
  type := .reference t
  store := .reference t
  load? := Value.asReference? t
  type_store _ := rfl
  load?_eq_some_iff v a := by
    cases v with
    | reference t' r =>
      by_cases h : t' = t
      · subst h
        simp [Value.asReference?]
      · simp [Value.asReference?, h]
    | _ => simp [Value.asReference?]

@[simp]
theorem load?_store {α : Type} [Storable α] (a : α) : load? (store a) = some a :=
  (load?_eq_some_iff _ _).2 rfl

end Storable

end BehaviorTree
