import BehaviorTree.Registry
import BehaviorTree.Source.Diagnostic

namespace BehaviorTree.Source

/-!
# From a declaration to a node

A declaration is what a tree file says about one node: its word, its name, its properties and its
children, which are nodes already.  `Declaration.build` makes the node: it resolves leaves in a
registry, names the node, sets the properties and adds the children, in this order.
-/

/-- What building works with: the workshop, what was found wrong so far, and the count of it. -/
structure Site (η : Type) where
  shop : Workshop η
  /-- What was found wrong, oldest first. -/
  diagnostics : List Diagnostic := []
  /-- How often something was found wrong. -/
  errors : Nat := 0

/-- Notes that something is wrong, and counts it. -/
def Site.report {η : Type} (s : Site η) (d : Diagnostic) : Site η :=
  { s with diagnostics := s.diagnostics ++ [d], errors := s.errors + 1 }

/-- The declaration of a node. -/
structure Declaration (β : Type) where
  word : NodeWord
  name : String
  line : Nat
  properties : List (String × PropertyValue)
  children : List (Node β)

/-- The name of the node that is declared with a word and a name: for leaves, both together. -/
def displayName : NodeWord → String → String
  | .leaf kind, name => kind.name ++ ":" ++ name
  | _, name => name

section

variable {β η : Type}

/-- The factory for a word and a name.  Leaves are looked up by their name. -/
def factory (r : Registry β η) : NodeWord → String → Except Fault (Factory β η)
  | .inner kind, _ => .ok (.control (.fresh kind))
  | .leaf kind, name =>
    match r.lookup? kind name with
    | some make => .ok make
    | none => .error (.unregistered kind name)

/-- Adds children to a node one after the other; those it has no room for are reported. -/
def addChildren (line : Nat) (n : Node β) (s : Site η) : List (Node β) → Node β × Site η
  | [] => (n, s)
  | c :: cs =>
    match n.addChild c with
    | (n, none) => addChildren line n s cs
    | (n, some c) =>
      addChildren line n
        (s.report { fault := .childRefused c.name, line := some line, node := some n.name }) cs

variable [Behavior β η]

/-- The node of a declaration, or a report that its name is not known. -/
def Declaration.build (r : Registry β η) (d : Declaration β) (s : Site η) :
    Option (Node β) × Site η :=
  match factory r d.word d.name with
  | .error fault => (none, s.report { fault, line := some d.line, node := some d.name })
  | .ok make =>
    let (n, shop) := make s.shop
    let (n, host) := (n.setName (displayName d.word d.name)).setProperties d.properties shop.host
    let (n, s) := addChildren d.line n { s with shop := { shop with host } } d.children
    (some n, s)

end

end BehaviorTree.Source
