import BehaviorTree.Forest
import BehaviorTree.Proofs.Node.Calls

namespace BehaviorTree.Forest

/-!
# Operations on a forest

All that a host does with nodes: it makes them, puts them below each other and takes them apart, names
and configures them, binds agents, and calls them.  A `Forest.Operation` is one of these, and
`Forest.run` does one after the other, where the host may change the rest of its world in between.
-/

variable {β η : Type}

/-- Something that a host does with its nodes. -/
inductive Operation (β : Type) where
  /-- Makes a leaf. -/
  | leaf (kind : LeafKind) (b : β)
  /-- Makes an inner node around trees. -/
  | inner (control : Control) (kids : List NodeId)
  | addChild (parent child : NodeId)
  | removeChild (parent child : NodeId)
  | setName (id : NodeId) (name : String)
  | setProperty (id : NodeId) (key : String) (value : PropertyValue)
  | bindAgent (id : NodeId) (a : Agent)
  | execute (id : NodeId) (now : Moment)
  | reset (id : NodeId)
  | cancel (id : NodeId)

/-- Whether an operation makes a node. -/
def Operation.makes : Operation β → Bool
  | .leaf .. | .inner .. => true
  | _ => false

/-- Puts trees below a node one after the other. -/
def addChildren (f : Forest β) (parent : NodeId) (kids : List NodeId) : Forest β :=
  kids.foldl (fun f kid => f.addChild parent kid) f

/-- The forest and the world after an operation.  An operation that names no node changes nothing. -/
def perform [Behavior β η] (op : Operation β) (f : Forest β) (w : World η) : Forest β × World η :=
  match op with
  | .leaf kind b => ((f.create fun id => .ofBehavior id kind b).2, w)
  | .inner control kids =>
    let (id, f) := f.create fun id => .ofControl id control
    (f.addChildren id kids, w)
  | .addChild parent child => (f.addChild parent child, w)
  | .removeChild parent child => ((f.removeChild? parent child).getD f, w)
  | .setName id name => (f.setName id name, w)
  | .setProperty id key value => w.atHost (f.setProperty id key value)
  | .bindAgent id a => (f.bindAgent id a, w)
  | .execute id now => (f.execute id now w).elim (f, w) fun o => (o.next, o.world)
  | .reset id => w.atHost (f.reset id)
  | .cancel id => w.atHost (f.cancel id)

/-- The forest and the world after operations, one after the other.  Before each one the host changes
    its world as it likes. -/
def run [Behavior β η] (f : Forest β) (w : World η) :
    List (Operation β × World.Change η) → Forest β × World η
  | [] => (f, w)
  | (op, change) :: ops =>
    let (f, w) := f.perform op (change w)
    f.run w ops

/-- How many nodes are made by some operations. -/
def made (ops : List (Operation β × World.Change η)) : Nat := ops.countP fun op => op.1.makes

end BehaviorTree.Forest
