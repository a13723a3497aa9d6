import BehaviorTree.Node.Broadcast

namespace BehaviorTree

/-!
# Building and editing trees

Fresh nodes, names and properties, agents, and the two edits of the children.

* `Node.bindAgent` reaches every node of a tree.
* `Node.addChild` puts a tree below another node at the end of its children, where it takes over the
  agent of its parent, and hands it back when there is no room.
* `Node.removeChild?` takes a direct child out again.
-/

namespace Node

variable {β η : Type}

/-! ### Fresh nodes -/

/-- An inner node without children, named after its kind. -/
def ofControl (id : NodeId) (control : Control) : Node β :=
  .inner { id, name := control.kind.name } control []

/-- A leaf, named after its kind. -/
def ofBehavior (id : NodeId) (kind : LeafKind) (b : β) : Node β :=
  .leaf { id, name := kind.name } kind b

/-! ### Names, properties and agents -/

/-- Renames the root of a tree. -/
def setName (name : String) (n : Node β) : Node β := n.withInfo fun i => { i with name }

/-- Lets the node interpret a property, and records it. -/
def setProperty [Behavior β η] (key : String) (value : PropertyValue) :
    Node β → η → Node β × η
  | .leaf info kind b, h =>
    let (b, h) := Behavior.configure key value b h
    (.leaf { info with properties := info.properties.insert key value } kind b, h)
  | .inner info control cs, h =>
    (.inner { info with properties := info.properties.insert key value }
      (control.configure key value) cs, h)

/-- Sets properties one after the other. -/
def setProperties [Behavior β η] (ps : List (String × PropertyValue)) (n : Node β) (h : η) :
    Node β × η :=
  ps.foldl (fun r p => r.1.setProperty p.1 p.2 r.2) (n, h)

mutual

/-- Binds an agent to every node of a tree. -/
def bindAgent (a : Agent) : Node β → Node β
  | .leaf info kind b => .leaf { info with agent := some a } kind b
  | .inner info control cs => .inner { info with agent := some a } control (bindAgentAll a cs)

/-- Binds an agent to every node of several trees. -/
def bindAgentAll (a : Agent) : List (Node β) → List (Node β)
  | [] => []
  | c :: cs => c.bindAgent a :: bindAgentAll a cs

end

theorem bindAgentAll_eq_map (a : Agent) (cs : List (Node β)) :
    bindAgentAll a cs = cs.map (bindAgent a) := by
  induction cs with
  | nil => simp [bindAgentAll]
  | cons c cs ih => simp [bindAgentAll, ih]

/-! ### Children -/

/-- Sets the recorded parent of a tree. -/
def setParent (parent : Option NodeId) (n : Node β) : Node β :=
  n.withInfo fun i => { i with parent }

/-- A tree as it stands below another node: linked to it, and bound to its agent if there is
    one. -/
def placedUnder (parent child : Node β) : Node β :=
  let child := child.setParent (some parent.id)
  match parent.agent with
  | some a => child.bindAgent a
  | none => child

/-- Puts a tree at the end of a node's children, if there is room: the node afterwards, and the tree
    if it is handed back. -/
def addChild (parent child : Node β) : Node β × Option (Node β) :=
  if parent.hasRoom then
    match parent with
    | .leaf .. => (parent, some child)
    | .inner info control cs => (.inner info control (cs ++ [parent.placedUnder child]), none)
  else (parent, some child)

/-- A node without room stays as it is, and so does the tree that it hands back. -/
theorem addChild_of_full {p : Node β} (h : p.hasRoom = false) (c : Node β) :
    p.addChild c = (p, some c) := by
  unfold addChild
  rw [h]
  rfl

/-- Puts trees below a node one after the other; those that are handed back are dropped. -/
def addChildren (parent : Node β) (cs : List (Node β)) : Node β :=
  cs.foldl (fun p c => (p.addChild c).1) parent

/-- Takes the direct child with an identity out: the child, without a parent, and the node with the
    other children. -/
def removeChild? (id : NodeId) : Node β → Option (Node β × Node β)
  | .leaf .. => none
  | .inner info control cs =>
    match cs.span (·.id ≠ id) with
    | (before, child :: after) =>
      some (child.setParent none, .inner info control (before ++ after))
    | (_, []) => none

/-! ### Places in a tree -/

/-- The node with an identity. -/
def find? (id : NodeId) (n : Node β) : Option (Node β) := n.preorder.find? (·.id = id)

mutual

/-- Changes the node with an identity, with everything below it. -/
def modify (id : NodeId) (f : Node β → Node β) : Node β → Node β
  | .leaf info kind b => if info.id = id then f (.leaf info kind b) else .leaf info kind b
  | .inner info control cs =>
    if info.id = id then f (.inner info control cs)
    else .inner info control (modifyAll id f cs)

/-- Changes the node with an identity in several trees. -/
def modifyAll (id : NodeId) (f : Node β → Node β) : List (Node β) → List (Node β)
  | [] => []
  | c :: cs => c.modify id f :: modifyAll id f cs

end

end Node

end BehaviorTree
