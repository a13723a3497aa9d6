namespace BehaviorTree

/-!
# Kinds of nodes

Every node has one of ten kinds, and every kind belongs to one of three categories.
-/

/-- The two kinds of leaves, each with a namespace of its own. -/
inductive LeafKind where
  | action
  | condition
deriving DecidableEq, Repr

/-- The kinds of inner nodes that the library defines. -/
inductive InnerKind where
  | sequence
  | selector
  | parallel
  | inverter
  | repeater
  | retry
  | timeout
deriving DecidableEq, Repr

/-- The kind of a node. -/
inductive Kind where
  | sequence
  | selector
  | parallel
  | inverter
  | repeater
  | retry
  | timeout
  | action
  | condition
  /-- A node that the host defines. -/
  | custom
deriving DecidableEq, Repr

/-- What a kind does with children. -/
inductive Category where
  | composite
  | decorator
  | leaf
deriving DecidableEq, Repr

namespace LeafKind

/-- The name of a leaf kind. -/
def name : LeafKind → String
  | .action => "Action"
  | .condition => "Condition"

/-- The name of a leaf kind in running text. -/
def word : LeafKind → String
  | .action => "action"
  | .condition => "condition"

/-- A leaf kind as a kind of nodes. -/
def kind : LeafKind → Kind
  | .action => .action
  | .condition => .condition

end LeafKind

/-- A kind of inner nodes as a kind of nodes. -/
def InnerKind.kind : InnerKind → Kind
  | .sequence => .sequence
  | .selector => .selector
  | .parallel => .parallel
  | .inverter => .inverter
  | .repeater => .repeater
  | .retry => .retry
  | .timeout => .timeout

namespace Kind

/-- The name of a kind. -/
def name : Kind → String
  | .sequence => "Sequence"
  | .selector => "Selector"
  | .parallel => "Parallel"
  | .inverter => "Inverter"
  | .repeater => "Repeat"
  | .retry => "Retry"
  | .timeout => "Timeout"
  | .action => "Action"
  | .condition => "Condition"
  | .custom => "Custom"

/-- The category of a kind.  Nodes of the host count as leaves. -/
def category : Kind → Category
  | .sequence | .selector | .parallel => .composite
  | .inverter | .repeater | .retry | .timeout => .decorator
  | .action | .condition | .custom => .leaf

theorem name_injective {k l : Kind} (h : k.name = l.name) : k = l := by
  cases k <;> cases l <;> simp_all [name]

end Kind

theorem LeafKind.kind_injective {k l : LeafKind} (h : k.kind = l.kind) : k = l := by
  cases k <;> cases l <;> simp_all [kind]

theorem InnerKind.kind_injective {k l : InnerKind} (h : k.kind = l.kind) : k = l := by
  cases k <;> cases l <;> simp_all [kind]

theorem LeafKind.kind_ne_innerKind (k : LeafKind) (l : InnerKind) : k.kind ≠ l.kind := by
  cases k <;> cases l <;> simp [kind, InnerKind.kind]

/-- The name of a category. -/
def Category.name : Category → String
  | .composite => "Composite"
  | .decorator => "Decorator"
  | .leaf => "Leaf"

end BehaviorTree
