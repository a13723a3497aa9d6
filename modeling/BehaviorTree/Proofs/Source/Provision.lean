import BehaviorTree.Proofs.Node.Snapshot
import BehaviorTree.Source.Declaration

namespace BehaviorTree.Source

/-!
# Where nodes come from

What a word and a name stand for in a tree file, before the node has children: written down word by
word, apart from how nodes are built.

* `Form` — what a snapshot shows of a node and how many children the node takes; `Form.ofWord` for the
  words of inner nodes, and `Form.ofNode` for the nodes that factories of a host make;
* `Resolves` — the factory of a leaf;
* `Provides` — the form that a word and a name provide, the name that it is shown with, and the workshop
  afterwards;
* `provides_of_factory`, `factory_of_provides` — building starts with such nodes, and with no others.
-/

variable {β η : Type}

/-! ### Forms -/

/-- What a snapshot shows of a node apart from its name, and how many children the node takes; without
    a number, any. -/
structure Form where
  kind : Kind
  capacity : Option Nat
  properties : Dict PropertyValue := .empty
  kids : List Snapshot := []

/-- The form that a word declares: any number of children below a composite, and one below a
    decorator. -/
def Form.ofWord : InnerKind → Form
  | .sequence => { kind := .sequence, capacity := none }
  | .selector => { kind := .selector, capacity := none }
  | .parallel => { kind := .parallel, capacity := none }
  | .inverter => { kind := .inverter, capacity := some 1 }
  | .repeater => { kind := .repeater, capacity := some 1 }
  | .retry => { kind := .retry, capacity := some 1 }
  | .timeout => { kind := .timeout, capacity := some 1 }

/-- The form of a node that is there already.  Leaves take no children, and a node that the host
    defines takes as many as the host says. -/
def Form.ofNode : Node β → Form
  | .leaf info .action _ => ⟨.action, some 0, info.properties, []⟩
  | .leaf info .condition _ => ⟨.condition, some 0, info.properties, []⟩
  | .inner info (.sequence _) cs => ⟨.sequence, none, info.properties, Snapshot.ofNodes cs⟩
  | .inner info (.selector _) cs => ⟨.selector, none, info.properties, Snapshot.ofNodes cs⟩
  | .inner info (.parallel _) cs => ⟨.parallel, none, info.properties, Snapshot.ofNodes cs⟩
  | .inner info .inverter cs => ⟨.inverter, some 1, info.properties, Snapshot.ofNodes cs⟩
  | .inner info (.repeater ..) cs => ⟨.repeater, some 1, info.properties, Snapshot.ofNodes cs⟩
  | .inner info (.retry ..) cs => ⟨.retry, some 1, info.properties, Snapshot.ofNodes cs⟩
  | .inner info (.timeout ..) cs => ⟨.timeout, some 1, info.properties, Snapshot.ofNodes cs⟩
  | .inner info (.custom host) cs => ⟨.custom, host.capacity, info.properties, Snapshot.ofNodes cs⟩

/-- Every one of so many more children finds a free place. -/
def Form.Takes (form : Form) (count : Nat) : Prop :=
  ∀ i < count, ∀ bound, form.capacity = some bound → form.kids.length + i < bound

theorem Form.ofNode_eq (n : Node β) :
    ofNode n = ⟨n.kind, n.capacity, n.properties, Snapshot.ofNodes n.children⟩ := by
  cases n with
  | leaf info kind b => cases kind <;> rfl
  | inner info control cs => cases control <;> rfl

theorem Form.ofNode_ofControl (id : NodeId) (kind : InnerKind) :
    ofNode (.ofControl id (.fresh kind) : Node β) = ofWord kind := by
  cases kind <;> rfl

theorem Form.takes_ofNode_iff {n : Node β} {count : Nat} :
    (ofNode n).Takes count ↔ n.HasRoomFor count := by
  have hlength : (Snapshot.ofNodes n.children).length = n.children.length := by
    rw [Snapshot.ofNodes_eq_map, List.length_map]
  rw [ofNode_eq, Takes, hlength]
  refine forall₂_congr fun i _ => ?_
  cases n.capacity with
  | none => exact iff_of_true nofun rfl
  | some bound => simp

/-! ### Leaves -/

/-- The factory of a leaf is that of the name in its own namespace, or else that among the nodes. -/
inductive Resolves (own nodes : Dict (Factory β η)) (name : String) (make : Factory β η) : Prop
  | own : own.get? name = some make → Resolves own nodes name make
  | node : own.get? name = none → nodes.get? name = some make → Resolves own nodes name make

theorem resolves_iff {own nodes : Dict (Factory β η)} {name : String} {make : Factory β η} :
    (own.get? name).or (nodes.get? name) = some make ↔ Resolves own nodes name make := by
  constructor
  · intro h
    rcases Option.or_eq_some_iff.1 h with hown | ⟨hown, hnode⟩
    · exact .own hown
    · exact .node hown hnode
  · rintro (hown | ⟨hown, hnode⟩)
    · rw [hown, Option.some_or]
    · rw [hown, Option.none_or, hnode]

theorem factory_leaf_eq_ok_iff {r : Registry β η} {kind : LeafKind} {name : String}
    {make : Factory β η} :
    factory r (.leaf kind) name = .ok make ↔ r.lookup? kind name = some make := by
  unfold factory
  dsimp only
  cases r.lookup? kind name with
  | none => exact iff_of_false nofun nofun
  | some make' => rw [Except.ok.injEq, Option.some.injEq]

variable [Behavior β η]

/-- The state of the host after a node was told its properties.  A leaf may change it with each of them,
    and an inner node does not. -/
def told (ps : List (String × PropertyValue)) : Node β → η → η
  | .leaf _ _ b, h => (ps.foldl (fun r p => Behavior.configure p.1 p.2 r.1 r.2) (b, h)).2
  | .inner .., h => h

theorem told_eq (ps : List (String × PropertyValue)) (n : Node β) (h : η) :
    told ps n h = (n.setProperties ps h).2 := by
  induction ps generalizing n h with
  | nil => cases n <;> rfl
  | cons p ps ih =>
    rw [Node.setProperties_cons, ← ih]
    cases n <;> rfl

/-! ### Nodes -/

/-- What a word, a name and properties provide in a workshop.  The words of inner nodes make new nodes,
    which are shown with their names.  A leaf comes from its factory, and is shown with its word before
    its name. -/
inductive Provides (r : Registry β η) (ps : List (String × PropertyValue)) :
    NodeWord → String → Workshop η → Form → String → Workshop η → Prop
  | inner (kind : InnerKind) (name : String) (shop : Workshop η) :
      Provides r ps (.inner kind) name shop (.ofWord kind) name ⟨shop.next + 1, shop.host⟩
  | action {name : String} {make : Factory β η} {shop shop' : Workshop η} {n : Node β} :
      Resolves r.actions r.nodes name make → make shop = (n, shop') →
      Provides r ps (.leaf .action) name shop (.ofNode n) ("Action:" ++ name)
        ⟨shop'.next, told ps n shop'.host⟩
  | condition {name : String} {make : Factory β η} {shop shop' : Workshop η} {n : Node β} :
      Resolves r.conditions r.nodes name make → make shop = (n, shop') →
      Provides r ps (.leaf .condition) name shop (.ofNode n) ("Condition:" ++ name)
        ⟨shop'.next, told ps n shop'.host⟩

/-- The factory for a word and a name provides its nodes. -/
theorem provides_of_factory {r : Registry β η} {w : NodeWord} {name : String} {make : Factory β η}
    {shop shop' : Workshop η} {n : Node β} (hmake : factory r w name = .ok make)
    (hn : make shop = (n, shop')) (ps : List (String × PropertyValue)) :
    Provides r ps w name shop (.ofNode n) (displayName w name)
      { shop' with host := (n.setProperties ps shop'.host).2 } := by
  rw [← told_eq]
  cases w with
  | inner kind =>
    obtain rfl := Except.ok.inj hmake
    obtain ⟨rfl, rfl⟩ := Prod.mk.inj hn
    rw [Form.ofNode_ofControl]
    exact .inner kind name shop
  | leaf kind =>
    have hresolves := resolves_iff.1 (factory_leaf_eq_ok_iff.1 hmake)
    cases kind with
    | action => exact .action hresolves hn
    | condition => exact .condition hresolves hn

/-- Whatever is provided comes from the factory. -/
theorem factory_of_provides {r : Registry β η} {ps : List (String × PropertyValue)} {w : NodeWord}
    {name shown : String} {shop after : Workshop η} {form : Form}
    (h : Provides r ps w name shop form shown after) :
    ∃ make n shop', factory r w name = .ok make ∧ make shop = (n, shop') ∧ form = .ofNode n ∧
      shown = displayName w name ∧
      after = { shop' with host := (n.setProperties ps shop'.host).2 } := by
  cases h with
  | inner kind =>
    refine ⟨.control (.fresh kind), _, _, rfl, rfl, (Form.ofNode_ofControl _ kind).symm, rfl, ?_⟩
    rw [← told_eq]
    rfl
  | action hmake hn | condition hmake hn =>
    refine ⟨_, _, _, factory_leaf_eq_ok_iff.2 (resolves_iff.2 hmake), hn, rfl, rfl, ?_⟩
    rw [told_eq]

/-- A word and a name provide one form. -/
theorem Provides.unique {r : Registry β η} {ps : List (String × PropertyValue)} {w : NodeWord}
    {name shown shown' : String} {shop after after' : Workshop η} {form form' : Form}
    (h : Provides r ps w name shop form shown after)
    (h' : Provides r ps w name shop form' shown' after') :
    form = form' ∧ shown = shown' ∧ after = after' := by
  obtain ⟨make, n, made, hmake, hn, rfl, rfl, rfl⟩ := factory_of_provides h
  obtain ⟨make', n', made', hmake', hn', rfl, rfl, rfl⟩ := factory_of_provides h'
  obtain rfl := Except.ok.inj (hmake.symm.trans hmake')
  obtain ⟨rfl, rfl⟩ := Prod.mk.inj (hn.symm.trans hn')
  exact ⟨rfl, rfl, rfl⟩

end BehaviorTree.Source
