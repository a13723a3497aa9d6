import BehaviorTree.Text.Quoted

namespace BehaviorTree

/-!
# Agents

The owner of a tree, as its nodes see it: a label for diagnostics and a payload of the host that
only leaves look into.  Two handles are on the same agent when they were made from one, whatever
their labels and payloads say.
-/

/-- What the host keeps in an agent. -/
inductive Payload where
  | integer (n : Int64)
  | text (s : String)
deriving DecidableEq, Repr

/-- A handle on an agent. -/
structure Agent where
  label : String
  /-- The number of the agent, which its handles share. -/
  identity : Nat
  payload : Payload
deriving DecidableEq, Repr

namespace Agent

/-- Whether two handles are on one agent. -/
def same (a b : Agent) : Bool := a.identity == b.identity

/-- A handle as diagnostics show it. -/
def describe (a : Agent) : String :=
  "AgentHandle \x7b label: " ++ Text.quote a.label ++ ", .. \x7d"

end Agent

end BehaviorTree
