import BehaviorTree.Leaf.Builtin
import BehaviorTree.Node.Edit

namespace BehaviorTree

/-!
# Factories by name

A registry knows factories of nodes by name, in three namespaces: actions, conditions and nodes of
any kind.  A leaf is looked up in the namespace of its kind first and among the nodes then, so a
node of any kind can be used under the name of a leaf.
-/

/-- What a factory works with: the identity of the next node and the state of the host. -/
structure Workshop (η : Type) where
  next : NodeId
  host : η

/-- A factory makes one node after the other. -/
abbrev Factory (β η : Type) := Workshop η → Node β × Workshop η

/-- A factory of fresh leaves that start alike. -/
def Factory.leaf {β η : Type} (kind : LeafKind) (b : β) : Factory β η := fun shop =>
  (.ofBehavior shop.next kind b, { shop with next := shop.next + 1 })

/-- A factory of inner nodes that start alike. -/
def Factory.control {β η : Type} (control : Control) : Factory β η := fun shop =>
  (.ofControl shop.next control, { shop with next := shop.next + 1 })

/-- Factories by name, in three namespaces. -/
structure Registry (β η : Type) where
  actions : Dict (Factory β η) := .empty
  conditions : Dict (Factory β η) := .empty
  nodes : Dict (Factory β η) := .empty

/-- Why a factory was not registered. -/
inductive RegistryError where
  | emptyName
deriving DecidableEq, Repr

/-- The text of a refusal. -/
def RegistryError.message : RegistryError → String
  | .emptyName => "node names must not be empty"

namespace Registry

variable {β η : Type}

/-- The namespace of a leaf kind. -/
def ofKind (r : Registry β η) : LeafKind → Dict (Factory β η)
  | .action => r.actions
  | .condition => r.conditions

/-- Changes the namespace of a leaf kind. -/
def modifyKind (r : Registry β η) (kind : LeafKind)
    (f : Dict (Factory β η) → Dict (Factory β η)) : Registry β η :=
  match kind with
  | .action => { r with actions := f r.actions }
  | .condition => { r with conditions := f r.conditions }

/-- Registers a factory of leaves; a factory of the same name is replaced, and an event tells of
    that. -/
def register (r : Registry β η) (kind : LeafKind) (name : String) (factory : Factory β η) :
    Except RegistryError (Registry β η × List Event) :=
  if name.isEmpty then .error .emptyName
  else
    .ok (r.modifyKind kind (·.insert name factory),
      if (r.ofKind kind).contains name then [.factoryReplaced kind name] else [])

/-- Registers a factory of nodes of any kind. -/
def registerNode (r : Registry β η) (name : String) (factory : Factory β η) :
    Except RegistryError (Registry β η × List Event) :=
  if name.isEmpty then .error .emptyName
  else
    .ok ({ r with nodes := r.nodes.insert name factory },
      if r.nodes.contains name then [.nodeFactoryReplaced name] else [])

/-- The names of the library's own leaves, with their kinds. -/
def builtins : List (LeafKind × String × Builtin) :=
  [(.action, "Succeed", .constant .success), (.action, "Fail", .constant .failure),
   (.condition, "Succeed", .constant .success), (.condition, "Fail", .constant .failure),
   (.action, "Wait", .pause), (.action, "SetValue", .write), (.action, "Log", .report),
   (.condition, "HasValue", .present), (.condition, "ValueEquals", .equal)]

/-- Registers the library's own leaves, in place of what had their names. -/
def registerBuiltins (embed : Builtin → β) (r : Registry β η) : Registry β η :=
  builtins.foldl
    (fun r b => r.modifyKind b.1 (·.insert b.2.1 (.leaf b.1 (embed b.2.2)))) r

/-- A registry of the library's own leaves. -/
def withBuiltins (embed : Builtin → β) : Registry β η := registerBuiltins embed {}

/-- The factory of a leaf: that of its own namespace, or else that among the nodes. -/
def lookup? (r : Registry β η) (kind : LeafKind) (name : String) : Option (Factory β η) :=
  ((r.ofKind kind).get? name).or (r.nodes.get? name)

/-- Whether a leaf has a factory. -/
def contains (r : Registry β η) (kind : LeafKind) (name : String) : Bool :=
  (r.ofKind kind).contains name || r.nodes.contains name

/-- The names in the namespace of a leaf kind, in ascending order. -/
def names (r : Registry β η) (kind : LeafKind) : List String := (r.ofKind kind).keys

/-- The names of the nodes, in ascending order. -/
def nodeNames (r : Registry β η) : List String := r.nodes.keys

/-- The number of factories. -/
def size (r : Registry β η) : Nat := r.actions.size + r.conditions.size + r.nodes.size

/-- The names as diagnostics show them. -/
def describe (r : Registry β η) : String :=
  let list := fun (names : List String) => "[" ++ ", ".intercalate (names.map Text.quote) ++ "]"
  "NodeRegistry \x7b actions: " ++ list (r.names .action) ++
    ", conditions: " ++ list (r.names .condition) ++ ", nodes: " ++ list r.nodeNames ++ " \x7d"

end Registry

end BehaviorTree
