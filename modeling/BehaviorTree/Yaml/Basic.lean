import BehaviorTree.Yaml.Scalar

namespace BehaviorTree

/-!
# YAML values

A YAML value as a tree.  A map is the list of its entries as they are written, so a key can stand in
it twice; the reader of a map decides what that means.
-/

/-- A YAML value. -/
inductive Yaml where
  | scalar (s : Yaml.Scalar)
  | list (items : List Yaml)
  | map (entries : List (Yaml × Yaml))
  /-- A value around the place where this one stands. -/
  | around

namespace Yaml

/-- The value where none is written. -/
def nothing : Yaml := .scalar .nothing

/-- What a value is as a scalar. -/
def scalar? : Yaml → Option Scalar
  | .scalar s => some s
  | _ => none

/-- The entries of a map whose keys are scalars, with the texts of the keys.  Where no value is
    written there are no entries. -/
def entries? : Yaml → Option (List (String × Yaml))
  | .map entries => entries.mapM fun e => e.1.scalar?.map fun key => (key.text, e.2)
  | .scalar s => if s.isNothing then some [] else none
  | _ => none

end Yaml

end BehaviorTree
