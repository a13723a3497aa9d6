import BehaviorTree.Snapshot.Basic
import BehaviorTree.Text.Quoted

namespace BehaviorTree

/-!
# Outlines

A snapshot as lines of text: each node on a line of its own, before its children and two blanks
further in than its parent, with its kind, its name and its properties sorted by key.
-/

namespace Snapshot

/-- A property in an outline: texts are quoted and numbers are not. -/
def outlineProperty (key : String) : PropertyValue → String
  | .text s => key ++ ": " ++ Text.quote s
  | .number x => key ++ ": " ++ Decimal.render .plain x

/-- The properties of a node in an outline; nothing when there are none. -/
def outlineProperties (properties : Dict PropertyValue) : String :=
  if properties.isEmpty then ""
  else
    " \x7b" ++ ", ".intercalate (properties.entries.map fun e => outlineProperty e.1 e.2) ++ "\x7d"

/-- The line of a node. -/
def outlineLine (depth : Nat) (kind : Kind) (name : String) (properties : Dict PropertyValue) :
    String :=
  String.ofList (List.replicate (2 * depth) ' ') ++ kind.name ++ " " ++ name ++
    outlineProperties properties ++ "\n"

/-- The outline of a tree. -/
def outline (s : Snapshot) : String :=
  String.join ((s.levels 0).map fun l => outlineLine l.1 l.2.1 l.2.2.1 l.2.2.2)

end Snapshot

end BehaviorTree
