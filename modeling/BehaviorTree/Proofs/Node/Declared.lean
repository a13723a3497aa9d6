import BehaviorTree.Proofs.Node.Simulation
import BehaviorTree.Proofs.Snapshot.Same
import BehaviorTree.Source.Declaration

namespace BehaviorTree

/-!
# Trees that are what they are declared to be

Everything that a node of a tree file does is written in its kind, its name and its properties, though
it was told one property at a time.  `Node.Declared` says so of every node of a tree.

* `Node.Declared.setProperty`, `Node.Declared.addChild` — the steps of building keep it;
* `Node.Declared.sameState` — declared trees with the same snapshot are in one state.
-/

open Source (displayName)

namespace Node

/-- Every node of the tree is a fresh one of the library, named as a tree file names it, with its
    properties written into it; and none of these is a number with a sign. -/
inductive Declared : Node Builtin → Prop
  | leaf {info : NodeInfo} {kind : LeafKind} {name : String} {fresh b : Builtin} :
    (kind, name, fresh) ∈ Registry.builtins → info.name = displayName (.leaf kind) name →
    UnsignedProperties info.properties →
    b = info.properties.replay Builtin.configure fresh → Declared (.leaf info kind b)
  | inner {info : NodeInfo} (k : InnerKind) {control : Control} {cs : List (Node Builtin)} :
    UnsignedProperties info.properties →
    control = info.properties.replay Control.configure (.fresh k) →
    (∀ c ∈ cs, Declared c) → Declared (.inner info control cs)

/-! ### Building -/

/-- A fresh leaf under the name that a tree file gives it. -/
theorem declared_ofBehavior {kind : LeafKind} {name : String} {b : Builtin}
    (h : (kind, name, b) ∈ Registry.builtins) (id : NodeId) :
    Declared ((ofBehavior id kind b).setName (displayName (.leaf kind) name)) :=
  .leaf h rfl unsignedProperties_empty rfl

/-- A fresh inner node under any name. -/
theorem declared_ofControl (id : NodeId) (k : InnerKind) (name : String) :
    Declared ((ofControl id (.fresh k)).setName name) :=
  .inner k unsignedProperties_empty rfl (fun _ h => absurd h List.not_mem_nil)

theorem Declared.setProperty {η : Type} {n : Node Builtin} (hn : n.Declared) (key : String)
    {v : PropertyValue} (hv : v.Unsigned) (h : η) : (n.setProperty key v h).1.Declared := by
  cases hn with
  | leaf hmem hname hunsigned hb =>
    refine .leaf hmem hname (hunsigned.insert key hv) ?_
    show Builtin.configure key v _ = _
    rw [Dict.replay_insert Builtin.settling_configure, ← hb]
  | inner k hunsigned hcontrol hcs =>
    refine .inner k (hunsigned.insert key hv) ?_ hcs
    rw [Dict.replay_insert Control.settling_configure, ← hcontrol]

theorem Declared.setProperties {η : Type} {n : Node Builtin} (hn : n.Declared)
    {ps : List (String × PropertyValue)} (hps : ∀ p ∈ ps, p.2.Unsigned) (h : η) :
    (n.setProperties ps h).1.Declared := by
  induction ps generalizing n h with
  | nil => exact hn
  | cons p ps ih =>
    obtain ⟨hp, hps⟩ := List.forall_mem_cons.1 hps
    rw [setProperties_cons]
    exact ih (hn.setProperty p.1 hp h) hps _

/-- What is known about a node besides its name and its properties does not matter. -/
theorem Declared.withInfo {n : Node Builtin} (hn : n.Declared) {f : NodeInfo → NodeInfo}
    (hname : ∀ info, (f info).name = info.name)
    (hproperties : ∀ info, (f info).properties = info.properties) : (n.withInfo f).Declared := by
  cases hn with
  | leaf hmem hdisplay hunsigned hb =>
    refine .leaf hmem ((hname _).trans hdisplay) ?_ ?_
    · rwa [hproperties]
    · rwa [hproperties]
  | inner k hunsigned hcontrol hcs =>
    refine .inner k ?_ ?_ hcs
    · rwa [hproperties]
    · rwa [hproperties]

theorem Declared.bindAgent {n : Node Builtin} (hn : n.Declared) (a : Agent) :
    (n.bindAgent a).Declared := by
  induction hn with
  | leaf hmem hname hunsigned hb =>
    rw [Node.bindAgent]
    exact .leaf hmem hname hunsigned hb
  | inner k hunsigned hcontrol _ ih =>
    rw [Node.bindAgent, bindAgentAll_eq_map]
    exact .inner k hunsigned hcontrol (List.forall_mem_map.2 ih)

theorem Declared.placedUnder {n : Node Builtin} (hn : n.Declared) (parent : Node Builtin) :
    (parent.placedUnder n).Declared := by
  have hlinked : (n.setParent (some parent.id)).Declared :=
    hn.withInfo (fun _ => rfl) (fun _ => rfl)
  unfold Node.placedUnder
  dsimp only
  split
  · exact hlinked.bindAgent _
  · exact hlinked

theorem Declared.addChild {n c : Node Builtin} (hn : n.Declared) (hc : c.Declared) :
    (n.addChild c).1.Declared := by
  unfold Node.addChild
  split
  case isFalse => exact hn
  cases hn with
  | leaf hmem hname hunsigned hb => exact .leaf hmem hname hunsigned hb
  | inner k hunsigned hcontrol hcs =>
    refine .inner k hunsigned hcontrol ?_
    exact List.forall_mem_append.2 ⟨hcs, List.forall_mem_singleton.2 (hc.placedUnder _)⟩

theorem Declared.unsigned {n : Node Builtin} (hn : n.Declared) :
    UnsignedProperties n.properties := by
  cases hn with
  | leaf _ _ hunsigned _ => exact hunsigned
  | inner _ hunsigned _ _ => exact hunsigned

/-! ### Snapshots -/

/-- The leaf behind a kind and a name. -/
theorem eq_of_mem_builtins {kind : LeafKind} {name : String} {a b : Builtin}
    (ha : (kind, name, a) ∈ Registry.builtins) (hb : (kind, name, b) ∈ Registry.builtins) :
    a = b := by
  have huniq : ∀ x ∈ Registry.builtins, ∀ y ∈ Registry.builtins,
      x.1 = y.1 → x.2.1 = y.2.1 → x.2.2 = y.2.2 := by decide
  exact huniq _ ha _ hb rfl rfl

theorem displayName_injective {kind : LeafKind} {a b : String}
    (h : displayName (.leaf kind) a = displayName (.leaf kind) b) : a = b :=
  (String.append_right_inj _).1 h

theorem kind_of_replay {control : Control} {k : InnerKind} {d : Dict PropertyValue}
    (h : control = d.replay Control.configure (.fresh k)) : control.kind = k.kind := by
  rw [h, Dict.replay_keeps Control.kind fun key v c => c.kind_configure key v, Control.kind_fresh]

/-- Declared trees with the same snapshot are in one state: a kind, a name and properties determine
    what a node was told to do, and none has made any progress. -/
theorem Declared.sameState {n m : Node Builtin} (hn : n.Declared) (hm : m.Declared)
    (h : (Snapshot.ofNode n).same (Snapshot.ofNode m) = true) : SameState n m := by
  induction hn generalizing m with
  | @leaf info kind name fresh b hmem hname hunsigned hb =>
    obtain ⟨hkind, hsame, hproperties, -⟩ := Snapshot.same_ofNode.1 h
    have hproperties := Snapshot.eq_of_sameProperties hunsigned hm.unsigned hproperties
    cases hm with
    | @leaf info' kind' name' fresh' b' hmem' hname' hunsigned' hb' =>
      obtain rfl : kind = kind' := LeafKind.kind_injective hkind
      obtain rfl : name = name' := displayName_injective (hname.symm.trans (hsame.trans hname'))
      obtain rfl : b = b' := by
        rw [hb, hb', eq_of_mem_builtins hmem hmem', hproperties]
        rfl
      exact sameState_leaf kind b hsame
    | inner k' hunsigned' hcontrol' hds =>
      exact absurd (hkind.trans (kind_of_replay hcontrol')) (kind.kind_ne_innerKind _)
  | @inner info k control cs hunsigned hcontrol hcs ih =>
    obtain ⟨hkind, hsame, hproperties, hchildren⟩ := Snapshot.same_ofNode.1 h
    have hproperties := Snapshot.eq_of_sameProperties hunsigned hm.unsigned hproperties
    cases hm with
    | leaf hmem' hname' hunsigned' hb' =>
      exact absurd (hkind.symm.trans (kind_of_replay hcontrol)) (LeafKind.kind_ne_innerKind _ k)
    | @inner info' k' control' ds hunsigned' hcontrol' hds =>
      obtain rfl : k = k' := InnerKind.kind_injective
        ((kind_of_replay hcontrol).symm.trans (hkind.trans (kind_of_replay hcontrol')))
      obtain rfl : control = control' := by
        rw [hcontrol, hcontrol', hproperties]
        rfl
      have hstates := Snapshot.map_eq_of_sameAll (fun c hc d hd => ih c hc (hds d hd)) hchildren
      exact sameState_inner control hsame (forall₂_sameState_iff.2 hstates)

end Node

end BehaviorTree
