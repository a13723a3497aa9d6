import BehaviorTree.Proofs.Source.Grammar
import BehaviorTree.Proofs.Source.Provision
import BehaviorTree.Proofs.Source.Report

namespace BehaviorTree.Source

/-!
# What a block denotes

A block of a tree file denotes the snapshots of its children, if every leaf has a factory and every
node has room for the children that are declared in it.

* `DenotesNode` — the snapshot that a node denotes once its children are known;
* `Denotes` — the snapshots that a block denotes, with what the factories do to the workshop;
* `build_of_denotes` — a declaration that denotes is built, and nothing is reported;
* `denotes_of_build` — a declaration that is built without a report denotes.
-/

variable {β η : Type}

/-! ### Room for the children -/

theorem addChildren_of_room (line : Nat) {n : Node β} {cs : List (Node β)}
    (h : n.HasRoomFor cs.length) (s : Site η) :
    ∃ m, addChildren line n s cs = (m, s) ∧
      Snapshot.ofNode m = .node n.kind n.name n.properties
        (Snapshot.ofNodes n.children ++ Snapshot.ofNodes cs) := by
  induction cs generalizing n with
  | nil =>
    refine ⟨n, rfl, ?_⟩
    rw [Snapshot.ofNode_eq, Snapshot.ofNodes, List.append_nil]
  | cons c cs ih =>
    obtain ⟨m, hadd, hkind, hname, hproperties, hcapacity, hchildren⟩ :=
      Node.addChild_of_hasRoom (h 0 (Nat.succ_pos _)) c
    -- one place is taken, and there is room for the others
    have hroom := (Node.hasRoomFor_succ_iff hcapacity (by rw [hchildren]; simp)).1 h
    obtain ⟨k, hk, hsnapshot⟩ := ih hroom.2
    refine ⟨k, by rw [addChildren, hadd]; exact hk, ?_⟩
    rw [hsnapshot, hkind, hname, hproperties, hchildren, Snapshot.ofNodes_append,
      List.append_assoc]
    simp only [Snapshot.ofNodes, Snapshot.ofNode_placedUnder, List.singleton_append]

theorem room_of_addChildren {line : Nat} {n : Node β} {s : Site η} {cs : List (Node β)}
    (h : (addChildren line n s cs).2.diagnostics = s.diagnostics) : n.HasRoomFor cs.length := by
  induction cs generalizing n with
  | nil => exact n.hasRoomFor_zero
  | cons c cs ih =>
    cases hroom : n.hasRoom with
    | false =>
      -- the refusal would have been reported
      rw [addChildren, Node.addChild_of_full hroom] at h
      have hprefix := addChildren_reports line n
        (s.report { fault := .childRefused c.name, line := some line, node := some n.name }) cs
      exact absurd (h ▸ hprefix) (s.not_report_prefix _)
    | true =>
      obtain ⟨m, hadd, -, -, -, hcapacity, hchildren⟩ := Node.addChild_of_hasRoom hroom c
      rw [addChildren, hadd] at h
      exact (Node.hasRoomFor_succ_iff hcapacity (by rw [hchildren]; simp)).2 ⟨hroom, ih h⟩

/-! ### Denotations -/

variable [Behavior β η]

/-- A node denotes a snapshot once its children are known, and leaves the workshop to what follows it.
    All of its children find a place, after those that it has already; and of several values for one
    property the last one counts, before that which the node has already. -/
inductive DenotesNode (r : Registry β η) (w : NodeWord) (name : String)
    (ps : List (String × PropertyValue)) (kids : List Snapshot) (shop : Workshop η) :
    Snapshot → Workshop η → Prop
  | mk {form : Form} {shown : String} {shop' : Workshop η} {properties : Dict PropertyValue} :
      Provides r ps w name shop form shown shop' → form.Takes kids.length →
      (∀ key, properties.get? key = (ps.reverse.lookup key).or (form.properties.get? key)) →
      DenotesNode r w name ps kids shop (.node form.kind shown properties (form.kids ++ kids)) shop'

/-- A block denotes the snapshots of its children, and leaves the workshop to what follows it.  A child
    is made after its own children. -/
inductive Denotes (r : Registry β η) : Block → Workshop η → List Snapshot → Workshop η → Prop
  | nil {shop : Workshop η} : Denotes r .nil shop [] shop
  | property {key : String} {v : PropertyValue} {rest : Block} {shop shop' : Workshop η}
      {siblings : List Snapshot} :
      Denotes r rest shop siblings shop' → Denotes r (.property key v rest) shop siblings shop'
  | child {w : NodeWord} {line : Nat} {name : String} {body rest : Block}
      {shop shop₁ shop₂ shop₃ : Workshop η} {snapshot : Snapshot} {kids siblings : List Snapshot} :
      Denotes r body shop kids shop₁ →
      DenotesNode r w name body.properties kids shop₁ snapshot shop₂ →
      Denotes r rest shop₂ siblings shop₃ →
      Denotes r (.child w line name body rest) shop (snapshot :: siblings) shop₃

/-- A node denotes at most one snapshot. -/
theorem DenotesNode.unique {r : Registry β η} {w : NodeWord} {name : String}
    {ps : List (String × PropertyValue)} {kids : List Snapshot} {shop shop₁ shop₂ : Workshop η}
    {snapshot snapshot' : Snapshot} (h : DenotesNode r w name ps kids shop snapshot shop₁)
    (h' : DenotesNode r w name ps kids shop snapshot' shop₂) : snapshot = snapshot' ∧ shop₁ = shop₂ := by
  obtain ⟨hprovides, -, hproperties⟩ := h
  obtain ⟨hprovides', -, hproperties'⟩ := h'
  obtain ⟨rfl, rfl, rfl⟩ := hprovides.unique hprovides'
  obtain rfl := Dict.ext fun key => (hproperties key).trans (hproperties' key).symm
  exact ⟨rfl, rfl⟩

/-- A block denotes at most one list of snapshots. -/
theorem Denotes.unique {r : Registry β η} {b : Block} {shop : Workshop η}
    {ss ss' : List Snapshot} {end' end'' : Workshop η} (h : Denotes r b shop ss end')
    (h' : Denotes r b shop ss' end'') : ss = ss' ∧ end' = end'' := by
  induction h generalizing ss' end'' with
  | nil =>
    cases h'
    exact ⟨rfl, rfl⟩
  | property _ ih =>
    cases h' with
    | property hrest => exact ih hrest
  | child _ hnode _ ihbody ihrest =>
    cases h' with
    | child hbody' hnode' hrest' =>
      obtain ⟨rfl, rfl⟩ := ihbody hbody'
      obtain ⟨rfl, rfl⟩ := hnode.unique hnode'
      obtain ⟨rfl, rfl⟩ := ihrest hrest'
      exact ⟨rfl, rfl⟩

/-! ### Building -/

/-- A declaration that denotes is built as it denotes, and nothing is reported. -/
theorem build_of_denotes {r : Registry β η} {d : Declaration β} {shop shop' : Workshop η}
    {snapshot : Snapshot} (h : DenotesNode r d.word d.name d.properties
      (Snapshot.ofNodes d.children) shop snapshot shop') (ds : List Diagnostic) (errors : Nat) :
    ∃ m, d.build r ⟨shop, ds, errors⟩ = (some m, ⟨shop', ds, errors⟩) ∧
      Snapshot.ofNode m = snapshot := by
  obtain ⟨hprovides, hroom, hproperties⟩ := h
  obtain ⟨make, n, made, hmake, hn, rfl, rfl, rfl⟩ := factory_of_provides hprovides
  rw [Form.takes_ofNode_iff, Snapshot.ofNodes_eq_map, List.length_map] at hroom
  rw [Form.ofNode_eq] at hproperties ⊢
  have hset := Node.setProperties_setName d.properties n made.host (displayName d.word d.name)
  have hkind := Node.setProperties_keeps d.properties n made.host Node.kind_setProperty
  have hcapacity := Node.setProperties_keeps d.properties n made.host Node.capacity_setProperty
  have hchildren := Node.setProperties_keeps d.properties n made.host Node.children_setProperty
  have hmap := Dict.ext fun key =>
    (Node.get?_setProperties d.properties n made.host key).trans (hproperties key).symm
  -- the node before its children are added
  generalize n.setProperties d.properties made.host = m at *
  have hroom' : (m.1.setName (displayName d.word d.name)).HasRoomFor d.children.length := by
    unfold Node.HasRoomFor
    rw [Node.capacity_setName, Node.children_setName, hcapacity, hchildren]
    exact hroom
  obtain ⟨k, hk, hsnapshot⟩ := addChildren_of_room d.line hroom'
    ⟨{ made with host := m.2 }, ds, errors⟩
  refine ⟨k, ?_, ?_⟩
  · simp only [Declaration.build, hmake, hn, hset, hk]
  · rw [hsnapshot, Node.kind_setName, Node.name_setName, Node.properties_setName,
      Node.children_setName, hkind, hchildren, hmap]

/-- A declaration that is built without a report denotes. -/
theorem denotes_of_build {r : Registry β η} {d : Declaration β} {s : Site η}
    (h : (d.build r s).2.diagnostics = s.diagnostics) :
    ∃ snapshot shop', DenotesNode r d.word d.name d.properties (Snapshot.ofNodes d.children) s.shop
      snapshot shop' := by
  unfold Declaration.build at h
  split at h
  · exact absurd h (s.report_ne _)
  · next make hmake =>
    obtain ⟨n, made, hn⟩ : ∃ n made, make s.shop = (n, made) := ⟨_, _, rfl⟩
    rw [hn] at h
    have hprovides := provides_of_factory hmake hn d.properties
    have hproperties := Node.get?_setProperties d.properties n made.host
    -- name and properties take no room
    have hroom := room_of_addChildren h
    unfold Node.HasRoomFor at hroom
    rw [Node.setProperties_keeps _ _ _ Node.capacity_setProperty,
      Node.setProperties_keeps _ _ _ Node.children_setProperty, Node.capacity_setName,
      Node.children_setName] at hroom
    refine ⟨_, _, .mk hprovides ?_ (fun key => (hproperties key).trans ?_)⟩
    · rw [Form.takes_ofNode_iff, Snapshot.ofNodes_eq_map, List.length_map]
      exact hroom
    · rw [Form.ofNode_eq]

end BehaviorTree.Source
