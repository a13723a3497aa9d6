import BehaviorTree.Node.Basic

namespace BehaviorTree

/-!
# Snapshots

The structure of a tree without its progress: kinds, names, properties and children in order.  Two
snapshots are compared part by part, numbers as numbers.
-/

/-- The structure of a tree. -/
inductive Snapshot where
  | node (kind : Kind) (name : String) (properties : Dict PropertyValue)
      (children : List Snapshot)

namespace Snapshot

mutual

/-- The structure of a tree of nodes. -/
def ofNode {β : Type} : Node β → Snapshot
  | .leaf info kind _ => .node kind.kind info.name info.properties []
  | .inner info control cs => .node control.kind info.name info.properties (ofNodes cs)

/-- The structures of several trees. -/
def ofNodes {β : Type} : List (Node β) → List Snapshot
  | [] => []
  | c :: cs => ofNode c :: ofNodes cs

end

mutual

/-- The number of nodes. -/
def count : Snapshot → Nat
  | .node _ _ _ cs => countAll cs + 1

/-- The number of nodes of several trees. -/
def countAll : List Snapshot → Nat
  | [] => 0
  | c :: cs => c.count + countAll cs

end

mutual

/-- The nodes with their depths, each before its children. -/
def levels (depth : Nat) : Snapshot → List (Nat × Kind × String × Dict PropertyValue)
  | .node kind name properties cs => (depth, kind, name, properties) :: levelsAll (depth + 1) cs

/-- The nodes of several trees with their depths. -/
def levelsAll (depth : Nat) : List Snapshot → List (Nat × Kind × String × Dict PropertyValue)
  | [] => []
  | c :: cs => c.levels depth ++ levelsAll depth cs

end

/-- Whether two property maps have the same keys with the same values. -/
def sameProperties (d e : Dict PropertyValue) : Bool :=
  d.keys == e.keys &&
    (d.entries.zip e.entries).all fun p => p.1.2.same p.2.2

mutual

/-- Whether two trees have the same structure; a NaN differs from itself. -/
def same : Snapshot → Snapshot → Bool
  | .node kind name properties cs, .node kind' name' properties' cs' =>
    kind = kind' && name = name' && sameProperties properties properties' && sameAll cs cs'

/-- Whether two lists of trees have the same structures. -/
def sameAll : List Snapshot → List Snapshot → Bool
  | [], [] => true
  | c :: cs, d :: ds => c.same d && sameAll cs ds
  | _, _ => false

end

end Snapshot

end BehaviorTree
