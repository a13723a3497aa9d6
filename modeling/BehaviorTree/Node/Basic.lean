import BehaviorTree.Control.Basic

namespace BehaviorTree

/-!
# Nodes

A tree of nodes: leaves with a behaviour, and inner nodes with a control and children in order.
Every node has an identity, a name, properties, perhaps an agent, and the identity of its parent.
-/

/-- The identity of a node. -/
abbrev NodeId := Nat

/-- What every node carries. -/
structure NodeInfo where
  id : NodeId
  name : String
  parent : Option NodeId := none
  properties : Dict PropertyValue := .empty
  agent : Option Agent := none

/-- A tree of nodes over leaves of type `β`. -/
inductive Node (β : Type) where
  | leaf (info : NodeInfo) (kind : LeafKind) (behavior : β)
  | inner (info : NodeInfo) (control : Control) (children : List (Node β))

namespace Node

variable {β η : Type}

/-! ### Parts of a node -/

/-- What the root of a tree carries. -/
def info : Node β → NodeInfo
  | .leaf info .. => info
  | .inner info .. => info

/-- The tree with another `info` at its root. -/
def withInfo (f : NodeInfo → NodeInfo) : Node β → Node β
  | .leaf info kind b => .leaf (f info) kind b
  | .inner info control cs => .inner (f info) control cs

/-- The identity of a node. -/
def id (n : Node β) : NodeId := n.info.id

/-- The name of a node. -/
def name (n : Node β) : String := n.info.name

/-- The identity of the parent. -/
def parent (n : Node β) : Option NodeId := n.info.parent

/-- The properties of a node. -/
def properties (n : Node β) : Dict PropertyValue := n.info.properties

/-- The agent that a node is bound to. -/
def agent (n : Node β) : Option Agent := n.info.agent

/-- The kind of a node. -/
def kind : Node β → Kind
  | .leaf _ kind _ => kind.kind
  | .inner _ control _ => control.kind

/-- The children of a node. -/
def children : Node β → List (Node β)
  | .leaf .. => []
  | .inner _ _ cs => cs

/-- How many children a node takes; without a number, any. -/
def capacity : Node β → Option Nat
  | .leaf .. => some 0
  | .inner _ control _ => control.capacity

/-- Whether a node takes one more child. -/
def hasRoom (n : Node β) : Bool := n.capacity.all (n.children.length < ·)

/-! ### Measures and views -/

mutual

/-- The number of levels of a tree. -/
def depth : Node β → Nat
  | .leaf .. => 1
  | .inner _ _ cs => depthAll cs + 1

/-- The number of levels of the deepest of several trees. -/
def depthAll : List (Node β) → Nat
  | [] => 0
  | c :: cs => max c.depth (depthAll cs)

end

mutual

/-- The leaves of a tree from left to right. -/
def leaves : Node β → List β
  | .leaf _ _ b => [b]
  | .inner _ _ cs => leavesAll cs

/-- The leaves of several trees from left to right. -/
def leavesAll : List (Node β) → List β
  | [] => []
  | c :: cs => c.leaves ++ leavesAll cs

end

mutual

/-- The nodes of a tree, each before its children. -/
def preorder : Node β → List (Node β)
  | .leaf info kind b => [.leaf info kind b]
  | .inner info control cs => .inner info control cs :: preorderAll cs

/-- The nodes of several trees, each before its children. -/
def preorderAll : List (Node β) → List (Node β)
  | [] => []
  | c :: cs => c.preorder ++ preorderAll cs

end

@[simp]
theorem depthAll_nil : depthAll ([] : List (Node β)) = 0 := by simp [depthAll]

@[simp]
theorem depthAll_cons (c : Node β) (cs : List (Node β)) :
    depthAll (c :: cs) = max c.depth (depthAll cs) := by simp [depthAll]

theorem depth_le_depthAll {c : Node β} {cs : List (Node β)} (h : c ∈ cs) :
    c.depth ≤ depthAll cs := by
  induction cs with
  | nil => simp at h
  | cons d cs ih =>
    rcases List.mem_cons.1 h with rfl | h
    · simp only [depthAll_cons]; omega
    · have := ih h
      simp only [depthAll_cons]; omega

theorem leavesAll_eq_flatMap (cs : List (Node β)) : leavesAll cs = cs.flatMap leaves := by
  induction cs with
  | nil => simp [leavesAll]
  | cons c cs ih => simp [leavesAll, ih]

theorem preorderAll_eq_flatMap (cs : List (Node β)) :
    preorderAll cs = cs.flatMap preorder := by
  induction cs with
  | nil => simp [preorderAll]
  | cons c cs ih => simp [preorderAll, ih]

end Node

end BehaviorTree
