import BehaviorTree.Node.Edit
import BehaviorTree.Node.Execute

namespace BehaviorTree

/-!
# Forests

All the nodes of a host at one time: trees that are not part of other trees, and the identity that
the next node will have.  Every operation names the node that it is about by its identity, however
deep that node is.
-/

/-- The trees of a host. -/
structure Forest (β : Type) where
  roots : List (Node β)
  /-- The identity of the next node. -/
  next : NodeId

namespace Forest

variable {β η : Type}

/-- No tree yet. -/
def empty : Forest β := ⟨[], 1⟩

/-- A new tree of one node. -/
def create (f : Forest β) (make : NodeId → Node β) : NodeId × Forest β :=
  (f.next, ⟨f.roots ++ [make f.next], f.next + 1⟩)

/-- The node with an identity. -/
def find? (f : Forest β) (id : NodeId) : Option (Node β) :=
  (Node.preorderAll f.roots).find? (·.id = id)

/-- Changes the node with an identity. -/
def modify (f : Forest β) (id : NodeId) (g : Node β → Node β) : Forest β :=
  { f with roots := Node.modifyAll id g f.roots }

/-- Changes a node together with a state `σ`; without such a node nothing changes. -/
def change {σ : Type} (f : Forest β) (id : NodeId) (g : Node β → σ → Node β × σ) (s : σ) :
    Forest β × σ :=
  match f.find? id with
  | some n => (f.modify id fun _ => (g n s).1, (g n s).2)
  | none => (f, s)

/-- One tick of a node. -/
def execute [Behavior β η] (f : Forest β) (id : NodeId) (now : Moment) (w : World η) :
    Option (Outcome (Forest β) η) :=
  (f.find? id).map fun n =>
    (n.execute now w).map fun n' => f.modify id fun _ => n'

/-- Resets a node. -/
def reset [Behavior β η] (f : Forest β) (id : NodeId) (h : η) : Forest β × η :=
  f.change id Node.reset h

/-- Cancels a node. -/
def cancel [Behavior β η] (f : Forest β) (id : NodeId) (h : η) : Forest β × η :=
  f.change id Node.cancel h

/-- Sets a property of a node. -/
def setProperty [Behavior β η] (f : Forest β) (id : NodeId) (key : String)
    (value : PropertyValue) (h : η) : Forest β × η :=
  f.change id (Node.setProperty key value) h

/-- Renames a node. -/
def setName (f : Forest β) (id : NodeId) (name : String) : Forest β :=
  f.modify id (Node.setName name)

/-- Binds an agent to a node and everything below it. -/
def bindAgent (f : Forest β) (id : NodeId) (a : Agent) : Forest β :=
  f.modify id (Node.bindAgent a)

/-- Puts a tree below a node of another tree: whether the node took it, and the forest afterwards.  A
    tree that is handed back is a root again, at its old place.  Nothing when the two are not in
    different trees. -/
def addChild? (f : Forest β) (parent child : NodeId) : Option (Bool × Forest β) :=
  match f.roots.span (·.id ≠ child) with
  | (before, c :: after) =>
    let rest : Forest β := { f with roots := before ++ after }
    (rest.find? parent).map fun p =>
      let (p', back) := p.addChild c
      let exchanged := Node.modifyAll parent fun _ => p'
      (back.isNone, { f with roots := exchanged before ++ back.toList ++ exchanged after })
  | (_, []) => none

/-- The forest after a tree was put below a node, or handed back by it; the same forest if the two are not
    in different trees. -/
def addChild (f : Forest β) (parent child : NodeId) : Forest β :=
  ((f.addChild? parent child).map Prod.snd).getD f

/-- Takes a direct child of a node out, which makes it a tree of its own. -/
def removeChild? (f : Forest β) (parent child : NodeId) : Option (Forest β) :=
  (f.find? parent).bind fun p =>
    (p.removeChild? child).map fun (c, p') =>
      let rest := f.modify parent fun _ => p'
      { rest with roots := rest.roots ++ [c] }

end Forest

end BehaviorTree
