import BehaviorTree.Node.Edit
import BehaviorTree.Proofs.Node.View
import BehaviorTree.Snapshot.Basic

namespace BehaviorTree

/-!
# What edits do to snapshots

The snapshot of a tree after properties were set and children were added, and the room that a node
needs for the latter.

* `Node.get?_setProperties` — of several values for one key the last one counts;
* `Node.HasRoomFor` — a node has room for so many more children;
* `Node.addChild_of_hasRoom` — a child goes to the end of the children, and nothing else changes;
* `Snapshot.ofNode_placedUnder` — a tree has the same snapshot wherever it stands.
-/

variable {β η : Type}

theorem Snapshot.ofNodes_eq_map (cs : List (Node β)) : ofNodes cs = cs.map ofNode := by
  induction cs with
  | nil => simp [ofNodes]
  | cons c cs ih => simp [ofNodes, ih]

theorem Snapshot.ofNodes_append (cs ds : List (Node β)) :
    ofNodes (cs ++ ds) = ofNodes cs ++ ofNodes ds := by
  simp only [ofNodes_eq_map, List.map_append]

theorem Snapshot.ofNode_eq (n : Node β) :
    ofNode n = .node n.kind n.name n.properties (ofNodes n.children) := by
  cases n with
  | leaf info kind b => simp [ofNode, ofNodes, Node.kind, Node.name, Node.properties, Node.info,
      Node.children]
  | inner info control cs => simp [ofNode, Node.kind, Node.name, Node.properties, Node.info,
      Node.children]

namespace Node

/-! ### Names and properties -/

section

variable (name : String) (n : Node β)

@[simp]
theorem name_setName : (n.setName name).name = name := by cases n <;> rfl

@[simp]
theorem kind_setName : (n.setName name).kind = n.kind := by cases n <;> rfl

@[simp]
theorem properties_setName : (n.setName name).properties = n.properties := by cases n <;> rfl

@[simp]
theorem capacity_setName : (n.setName name).capacity = n.capacity := by cases n <;> rfl

@[simp]
theorem children_setName : (n.setName name).children = n.children := by cases n <;> rfl

end

section

variable [Behavior β η] (key : String) (value : PropertyValue) (n : Node β) (h : η)

@[simp]
theorem kind_setProperty : (n.setProperty key value h).1.kind = n.kind := by
  cases n with
  | leaf info kind b => rfl
  | inner info control cs => exact control.kind_configure key value

@[simp]
theorem capacity_setProperty : (n.setProperty key value h).1.capacity = n.capacity := by
  cases n with
  | leaf info kind b => rfl
  | inner info control cs => cases control <;> rfl

@[simp]
theorem children_setProperty : (n.setProperty key value h).1.children = n.children := by
  cases n <;> rfl

@[simp]
theorem name_setProperty : (n.setProperty key value h).1.name = n.name := by cases n <;> rfl

@[simp]
theorem properties_setProperty :
    (n.setProperty key value h).1.properties = n.properties.insert key value := by
  cases n <;> rfl

theorem setProperty_setName (name : String) :
    (n.setName name).setProperty key value h =
      ((n.setProperty key value h).1.setName name, (n.setProperty key value h).2) := by
  cases n <;> rfl

end

section

variable [Behavior β η] (ps : List (String × PropertyValue)) (n : Node β) (h : η)

theorem setProperties_cons (p : String × PropertyValue) :
    n.setProperties (p :: ps) h =
      (n.setProperty p.1 p.2 h).1.setProperties ps (n.setProperty p.1 p.2 h).2 := rfl

/-- What no single property changes. -/
theorem setProperties_keeps {α : Type} {f : Node β → α}
    (hf : ∀ key value n (h : η), f (n.setProperty key value h).1 = f n) :
    f (n.setProperties ps h).1 = f n := by
  induction ps generalizing n h with
  | nil => rfl
  | cons p ps ih => rw [setProperties_cons, ih, hf]

theorem setProperties_setName (name : String) :
    (n.setName name).setProperties ps h =
      ((n.setProperties ps h).1.setName name, (n.setProperties ps h).2) := by
  induction ps generalizing n h with
  | nil => rfl
  | cons p ps ih => rw [setProperties_cons, setProperty_setName, ih, setProperties_cons]

/-- Of several values for one key the last one counts, and a key without a value keeps that which
    it had. -/
theorem get?_setProperties (key : String) :
    (n.setProperties ps h).1.properties.get? key =
      (ps.reverse.lookup key).or (n.properties.get? key) := by
  induction ps generalizing n h with
  | nil => rfl
  | cons p ps ih =>
    obtain ⟨k, v⟩ := p
    rw [setProperties_cons, ih, properties_setProperty, Dict.get?_insert, List.reverse_cons,
      List.lookup_append, Option.or_assoc]
    congr 1
    by_cases hkey : key = k
    · simp [hkey]
    · simp [hkey, List.lookup_cons, beq_eq_false_iff_ne.2 hkey]

end

/-! ### Children -/

/-- A node has room for so many more children, one after the other. -/
def HasRoomFor (n : Node β) (count : Nat) : Prop :=
  ∀ i < count, n.capacity.all (n.children.length + i < ·) = true

theorem hasRoomFor_zero (n : Node β) : n.HasRoomFor 0 := fun _ hi => absurd hi (Nat.not_lt_zero _)

theorem hasRoomFor_succ_iff {n m : Node β} {count : Nat} (hcapacity : m.capacity = n.capacity)
    (hchildren : m.children.length = n.children.length + 1) :
    n.HasRoomFor (count + 1) ↔ n.hasRoom = true ∧ m.HasRoomFor count := by
  constructor
  · intro h
    refine ⟨h 0 (Nat.succ_pos count), ?_⟩
    intro i hi
    have hnext := h (i + 1) (Nat.succ_lt_succ hi)
    rwa [hcapacity, hchildren, Nat.add_right_comm]
  · rintro ⟨hfirst, hothers⟩ i hi
    cases i with
    | zero => exact hfirst
    | succ i =>
      have hnext := hothers i (Nat.lt_of_succ_lt_succ hi)
      rwa [hcapacity, hchildren, Nat.add_right_comm] at hnext

/-- A child goes to the end of the children of a node with room, and nothing else changes. -/
theorem addChild_of_hasRoom {n : Node β} (h : n.hasRoom = true) (c : Node β) :
    ∃ m, n.addChild c = (m, none) ∧ m.kind = n.kind ∧ m.name = n.name ∧
      m.properties = n.properties ∧ m.capacity = n.capacity ∧
      m.children = n.children ++ [n.placedUnder c] := by
  cases n with
  | leaf info kind b => exact absurd h (by simp [hasRoom, capacity])
  | inner info control cs =>
    rw [addChild, if_pos h]
    exact ⟨_, rfl, rfl, rfl, rfl, rfl, rfl⟩

end Node

namespace Snapshot

theorem ofNode_setParent (parent : Option NodeId) (n : Node β) :
    ofNode (n.setParent parent) = ofNode n := by
  cases n with
  | leaf info kind b => simp [Node.setParent, Node.withInfo, ofNode]
  | inner info control cs => simp [Node.setParent, Node.withInfo, ofNode]

theorem ofNode_bindAgent (a : Agent) (n : Node β) : ofNode (n.bindAgent a) = ofNode n := by
  induction n with
  | leaf info kind b => simp [Node.bindAgent, ofNode]
  | inner info control cs ih =>
    rw [Node.bindAgent, Node.bindAgentAll_eq_map, ofNode, ofNode, ofNodes_eq_map, ofNodes_eq_map,
      List.map_map]
    have hchildren : cs.map (ofNode ∘ Node.bindAgent a) = cs.map ofNode := List.map_congr_left ih
    rw [hchildren]

/-- A tree has the same snapshot wherever it stands. -/
theorem ofNode_placedUnder (parent n : Node β) : ofNode (parent.placedUnder n) = ofNode n := by
  unfold Node.placedUnder
  dsimp only
  split
  · rw [ofNode_bindAgent, ofNode_setParent]
  · rw [ofNode_setParent]

end Snapshot

end BehaviorTree
