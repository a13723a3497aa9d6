import BehaviorTree.Json.Forms
import BehaviorTree.Snapshot.Basic

namespace BehaviorTree

/-!
# Snapshots as JSON

A node is an object with its kind and its name, and with its properties and its children unless it
has none.
-/

namespace Snapshot

mutual

/-- A tree as JSON. -/
def toJson : Snapshot → Json
  | .node kind name properties children =>
    let properties :=
      if properties.isEmpty then []
      else [("properties", Json.object (properties.entries.map fun e => (e.1, e.2.toJson)))]
    let children := match toJsons children with
      | [] => []
      | items => [("children", Json.list items)]
    .object (("kind", .text kind.name) :: ("name", .text name) :: properties ++ children)

/-- Several trees as JSON. -/
def toJsons : List Snapshot → List Json
  | [] => []
  | c :: cs => c.toJson :: toJsons cs

end

end Snapshot

end BehaviorTree
