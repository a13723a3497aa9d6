import BehaviorTree.Proofs.Forest.Linked
import BehaviorTree.Proofs.Node.Agents

namespace BehaviorTree.Forest

/-!
# Agents in a forest

`Forest.Handed R` says that every node of a forest hands its binding on to its children, as the relation
`R` on agents demands.  Trees come below bound nodes and out of them again, and may have been bound
before; the two edits of children keep this for every relation on agents that is reflexive.

* `Handed.modify` — changing one node, if its new binding suits the node above;
* `Handed.addChild?`, `Handed.removeChild?` — the edits of children;
* `Handed.bindAgent`, `Handed.bindAgent_root` — binding an agent to any node keeps that nodes below
  bound ones are bound at all; binding one to a root keeps to what it was bound;
* `Handed.perform`, `Handed.run` — all operations;
* `run_bound` — the bindings after any operations.
-/

open Node (HandsOn)

variable {β η : Type} {R : Agent → Agent → Prop} {k : Nat} {f : Forest β}

/-- Every node of the forest hands its binding on to its children. -/
def Handed (R : Agent → Agent → Prop) (f : Forest β) : Prop := ∀ n ∈ f.roots, n.Handed R

/-- What the operation binds is at a root. -/
def BindsRoot (f : Forest β) (op : Operation β) : Prop :=
  ∀ i a, op = .bindAgent i a → ∀ p, f.find? i = some p → p ∈ f.roots

/-- Whenever one of the operations binds an agent to a node, that node is a root at that moment. -/
def BindsRoots [Behavior β η] (f : Forest β) (w : World η)
    (ops : List (Operation β × World.Change η)) : Prop :=
  ∀ before op after, ops = before ++ op :: after → (f.run w before).1.BindsRoot op.1

theorem bindsRoot_of_mem {p : Node β} (hp : p ∈ f.roots) {i : NodeId} (hi : f.find? i = some p)
    {a : Agent} : f.BindsRoot (.bindAgent i a) := by
  rintro _ _ ⟨⟩ q hq
  obtain rfl := Option.some.inj (hi.symm.trans hq)
  exact hp

theorem bindsRoots_nil [Behavior β η] {w : World η} : f.BindsRoots w [] :=
  fun _ _ _ heq => absurd heq (by simp)

theorem bindsRoots_cons [Behavior β η] {w : World η} {op : Operation β × World.Change η}
    {ops : List (Operation β × World.Change η)} :
    f.BindsRoots w (op :: ops) ↔ f.BindsRoot op.1 ∧
      (f.perform op.1 (op.2 w)).1.BindsRoots (f.perform op.1 (op.2 w)).2 ops := by
  constructor
  · intro h
    refine ⟨h [] op ops rfl, fun before op' after heq => ?_⟩
    exact h (op :: before) op' after (by rw [heq, List.cons_append])
  · rintro ⟨hnow, hlater⟩ before op' after heq
    cases before with
    | nil =>
      obtain ⟨rfl, -⟩ := List.cons.inj heq
      exact hnow
    | cons first before =>
      obtain ⟨rfl, rfl⟩ := List.cons.inj heq
      exact hlater before op' after rfl

/-- Changing a root changes one of the trees. -/
theorem Linked.modify_root (h : f.Linked k) {p : Node β} (hp : p ∈ f.roots) (g : Node β → Node β) :
    ∀ n ∈ (f.modify p.id g).roots, n = g p ∨ n ∈ f.roots := by
  intro n hn
  rw [Forest.modify, Node.modifyAll_eq_map] at hn
  obtain ⟨c, hc, rfl⟩ := List.mem_map.1 hn
  by_cases hid : p.id = c.id
  · obtain rfl := List.inj_on_of_nodup_map h.nodup_roots hp hc hid
    exact .inl (Node.modify_self g p)
  · -- the identity of a root is not that of a node in another tree
    have hout : p.id ∉ c.preorder.map Node.id := by
      intro hmem
      obtain ⟨q, hq, hqp⟩ := List.mem_map.1 hmem
      have hqnode : q ∈ f.nodes := (Node.preorder_sublist_of_mem hc).subset hq
      have hpnode : p ∈ f.nodes := (Node.sublist_preorderAll f.roots).subset hp
      obtain rfl := List.inj_on_of_nodup_map h.nodup hqnode hpnode hqp
      exact h.not_mem_preorder hp hc hid hq
    rw [Node.modify_of_not_mem g hout]
    exact .inr hc

namespace Handed

theorem of_mem (hf : f.Handed R) {p : Node β} (hp : p ∈ f.nodes) : p.Handed R := by
  obtain ⟨n, hn, hpn⟩ := Node.mem_preorderAll.1 hp
  have hbelow : p.preorder.Sublist (Node.preorderAll [n]) :=
    Node.preorder_sublist (Node.mem_preorderAll.2 ⟨n, List.mem_cons_self, hpn⟩)
  intro q hq
  obtain ⟨m, hm, hqm⟩ := Node.mem_preorderAll.1 (hbelow.subset hq)
  exact hf n hn q (List.mem_singleton.1 hm ▸ hqm)

/-- The new node has to hand its binding on, and to take over from the node above as the old one did. -/
theorem modify (hf : f.Handed R) (hnodup : (f.nodes.map Node.id).Nodup) {i : NodeId}
    {g : Node β → Node β} (hg : ∀ p ∈ f.nodes, p.id = i →
      (g p).Handed R ∧ ∀ q, HandsOn R q p → HandsOn R q (g p)) : (f.modify i g).Handed R := by
  by_cases hi : i ∈ f.nodes.map Node.id
  · obtain ⟨p, hp, rfl⟩ := List.mem_map.1 hi
    obtain ⟨hhanded, hover⟩ := hg p hp rfl
    exact (Node.exchanged_modifyAll g hnodup hp).handed hf hhanded hover
  · rw [Forest.modify, Node.modifyAll_of_not_mem g hi]
    exact hf

theorem modify_of_view (hf : f.Handed R) (hnodup : (f.nodes.map Node.id).Nodup) {i : NodeId}
    {g : Node β → Node β}
    (hg : ∀ p ∈ f.nodes, p.id = i → (g p).view Node.agent = p.view Node.agent) :
    (f.modify i g).Handed R := by
  refine hf.modify hnodup fun p hp hid => ?_
  have hview := hg p hp hid
  refine ⟨Node.handed_of_view_eq hview.symm (hf.of_mem hp), fun q hq => ?_⟩
  exact hq.congr rfl (Node.root_of_view_eq hview)

theorem change {σ : Type} (hf : f.Handed R) (h : f.Linked k) (i : NodeId)
    {g : Node β → σ → Node β × σ}
    (hg : ∀ n s, (g n s).1.view Node.agent = n.view Node.agent) (s : σ) :
    (f.change i g s).1.Handed R := by
  unfold Forest.change
  cases hfind : f.find? i with
  | none => exact hf
  | some p =>
    obtain ⟨hp, rfl⟩ := of_find? hfind
    refine hf.modify_of_view h.nodup fun n hn hid => ?_
    rw [List.inj_on_of_nodup_map h.nodup hn hp hid]
    exact hg p s

theorem create (hf : f.Handed R) {make : NodeId → Node β} (hchildren : (make f.next).children = []) :
    (f.create make).2.Handed R := by
  have hmade : (make f.next).Handed R := Node.handed_iff.2 (hchildren ▸ nofun)
  show ∀ n ∈ f.roots ++ [make f.next], n.Handed R
  rw [List.forall_mem_append]
  exact ⟨hf, List.forall_mem_singleton.2 hmade⟩

/-! ### Edits of children -/

/-- A tree that is put below a node is bound anew if the node is bound, and keeps its bindings if not. -/
theorem addChild?_of_room (hf : f.Handed R) (hrefl : ∀ a, R a a) (h : f.Linked k) {p c : Node β}
    (hp : p ∈ f.nodes) (hc : c ∈ f.roots) (hout : p ∉ c.preorder) (hroom : p.hasRoom = true) :
    ∃ f', f.addChild? p.id c.id = some (true, f') ∧ f'.Handed R := by
  obtain ⟨f', p', -, hadd, -, -, hp', -, hroots⟩ := h.addChild?_of_room hp hc hout hroom
  refine ⟨f', hadd, ?_⟩
  obtain ⟨before, after, -, hsplit, hfilter, hmem, hnodup⟩ := h.span_root hc hp hout
  -- the trees that are left when the new child is taken from them
  have hrest : Handed R ⟨before ++ after, f.next⟩ := by
    intro n hn
    refine hf n ?_
    rw [hsplit]
    exact ((List.sublist_cons_self c after).append_left before).subset hn
  obtain ⟨hplaced, hover⟩ := Node.handed_placedUnder hrefl p (hf c hc)
  have hhanded : p'.Handed R := by
    rw [hp']
    refine Node.handed_withChildren ?_
    rw [List.forall_mem_append, List.forall_mem_singleton]
    exact ⟨Node.handed_iff.1 (hf.of_mem hp), hover, hplaced⟩
  have hagent : p'.agent = p.agent := by
    rw [hp']
    exact congrArg NodeInfo.agent (Node.info_withChildren _ p)
  have hmodified : (Forest.modify ⟨before ++ after, f.next⟩ p.id fun _ => p').Handed R := by
    refine hrest.modify hnodup fun q hq hid => ⟨hhanded, fun r hr => ?_⟩
    obtain rfl := List.inj_on_of_nodup_map hnodup hq hmem hid
    exact hr.congr rfl hagent
  intro n hn
  rw [hroots, hfilter, ← Node.modifyAll_eq_map] at hn
  exact hmodified n hn

theorem addChild (hf : f.Handed R) (hrefl : ∀ a, R a a) (h : f.Linked k) (i j : NodeId) :
    (f.addChild i j).Handed R := by
  unfold Forest.addChild
  cases hadd : f.addChild? i j with
  | none => exact hf
  | some r =>
    obtain ⟨p, hp, c, hc, rfl, rfl, hout⟩ := h.addChild?_eq_some hadd
    cases hroom : p.hasRoom with
    | true =>
      obtain ⟨f', hadd', hhanded⟩ := hf.addChild?_of_room hrefl h hp hc hout hroom
      exact Option.some.inj (hadd.symm.trans hadd') ▸ hhanded
    | false => exact Option.some.inj (hadd.symm.trans (h.addChild?_of_full hp hc hout hroom)) ▸ hf

theorem addChildren (hf : f.Handed R) (hrefl : ∀ a, R a a) (h : f.Linked k) (i : NodeId)
    (kids : List NodeId) : (f.addChildren i kids).Handed R := by
  unfold Forest.addChildren
  induction kids generalizing f with
  | nil => exact hf
  | cons j kids ih => exact ih (hf.addChild hrefl h i j) (h.addChild i j)

/-- A tree that is taken out keeps its bindings. -/
theorem removeChild? (hf : f.Handed R) (h : f.Linked k) {i j : NodeId} {f' : Forest β}
    (hremove : f.removeChild? i j = some f') : f'.Handed R := by
  obtain ⟨p, hfind, hremove⟩ := Option.bind_eq_some_iff.1 hremove
  obtain ⟨⟨c, p'⟩, hcp, rfl⟩ := Option.map_eq_some_iff.1 hremove
  obtain ⟨hp, rfl⟩ := of_find? hfind
  obtain ⟨hc, hhanded, hagent⟩ := Node.handed_removeChild (hf.of_mem hp) hcp
  have hmodified : (f.modify p.id fun _ => p').Handed R := by
    refine hf.modify h.nodup fun q hq hid => ⟨hhanded, fun r hr => ?_⟩
    obtain rfl := List.inj_on_of_nodup_map h.nodup hq hp hid
    exact hr.congr rfl hagent
  show ∀ n ∈ (f.modify p.id fun _ => p').roots ++ [c], n.Handed R
  rw [List.forall_mem_append]
  exact ⟨hmodified, List.forall_mem_singleton.2 hc⟩

/-! ### Bindings -/

/-- Wherever an agent is bound, nodes below bound nodes are bound. -/
theorem bindAgent (hf : f.Handed R) (hall : ∀ a b, R a b) (h : f.Linked k) (i : NodeId) (a : Agent) :
    (f.bindAgent i a).Handed R := by
  refine hf.modify h.nodup fun p _ _ => ⟨Node.handed_bindAgent (fun b => hall b b) a p, fun q _ => ?_⟩
  exact fun b _ => ⟨a, Node.agent_bindAgent (Node.mem_preorder_self _), hall b a⟩

/-- No node is above a root, so binding an agent there suits all nodes. -/
theorem bindAgent_root (hf : f.Handed R) (hrefl : ∀ a, R a a) (h : f.Linked k) {i : NodeId}
    (hi : ∀ p, f.find? i = some p → p ∈ f.roots) (a : Agent) : (f.bindAgent i a).Handed R := by
  by_cases hmem : i ∈ f.nodes.map Node.id
  · obtain ⟨p, hp, rfl⟩ := List.mem_map.1 hmem
    intro n hn
    rcases h.modify_root (hi p (h.find?_eq hp)) (Node.bindAgent a) n hn with rfl | hold
    · exact Node.handed_bindAgent hrefl a p
    · exact hf n hold
  · rw [Forest.bindAgent, Forest.modify, Node.modifyAll_of_not_mem _ hmem]
    exact hf

/-! ### Operations -/

/-- Every operation keeps that bindings are handed on, where a binding has to be at a root unless the
    relation holds of all agents. -/
theorem perform [Behavior β η] (hf : f.Handed R) (hrefl : ∀ a, R a a) (h : f.Linked k)
    {op : Operation β} (hop : (∀ a b, R a b) ∨ f.BindsRoot op) (w : World η) :
    (f.perform op w).1.Handed R := by
  cases op with
  | leaf kind b =>
    have hmade : (f.create fun i => .ofBehavior i kind b).2.Handed R := by
      refine hf.create ?_
      rfl
    exact hmade
  | inner control kids =>
    have hlinked : (f.create fun i => .ofControl i control).2.Linked (k + 1) := h.create rfl rfl rfl
    have hmade : (f.create fun i => .ofControl i control).2.Handed R := by
      refine hf.create ?_
      rfl
    exact hmade.addChildren hrefl hlinked f.next kids
  | addChild i j => exact hf.addChild hrefl h i j
  | removeChild i j =>
    show ((f.removeChild? i j).getD f).Handed R
    cases hremove : f.removeChild? i j with
    | none => exact hf
    | some f' => exact hf.removeChild? h hremove
  | setName i name => exact hf.modify_of_view h.nodup fun n _ _ => Node.view_agent_setName name n
  | setProperty i key value => exact hf.change h i (Node.view_agent_setProperty key value) w.host
  | bindAgent i a =>
    rcases hop with hall | hroot
    · exact hf.bindAgent hall h i a
    · exact hf.bindAgent_root hrefl h (hroot i a rfl) a
  | execute i now =>
    show Handed R ((f.execute i now w).elim (f, w) fun o => (o.next, o.world)).1
    unfold Forest.execute
    cases hfind : f.find? i with
    | none => exact hf
    | some p =>
      obtain ⟨hp, rfl⟩ := of_find? hfind
      refine hf.modify_of_view (g := fun _ => (p.execute now w).next) h.nodup fun n hn hid => ?_
      rw [List.inj_on_of_nodup_map h.nodup hn hp hid]
      exact Node.steady_agent.view_execute now p w
  | reset i => exact hf.change h i Node.steady_agent.view_reset w.host
  | cancel i => exact hf.change h i Node.steady_agent.view_cancel w.host

theorem run [Behavior β η] (hf : f.Handed R) (hrefl : ∀ a, R a a) (h : f.Linked k) {w : World η}
    {ops : List (Operation β × World.Change η)} (hops : (∀ a b, R a b) ∨ f.BindsRoots w ops) :
    (f.run w ops).1.Handed R := by
  induction ops generalizing k f w with
  | nil => exact hf
  | cons op ops ih =>
    obtain ⟨op, change⟩ := op
    have hnow : (∀ a b, R a b) ∨ f.BindsRoot op := hops.imp_right fun h => (bindsRoots_cons.1 h).1
    have hlater := hops.imp_right fun h => (bindsRoots_cons.1 h).2
    exact ih (hf.perform hrefl h hnow (change w)) (h.perform op (change w)) hlater

end Handed

/-- The bindings after any operations.  Below a node that is bound all nodes are bound, and if agents
    were bound to nothing but roots, they are bound to the agent of that node.  Binding an agent to any
    node binds it to all nodes below. -/
theorem run_bound [Behavior β η] (w : World η) (ops : List (Operation β × World.Change η)) :
    let f := (run empty w ops).1
    (∀ p ∈ f.nodes, p.agent.isSome → ∀ c ∈ p.preorder, c.agent.isSome) ∧
      (BindsRoots empty w ops → ∀ p ∈ f.nodes, ∀ a, p.agent = some a →
        ∀ c ∈ p.preorder, ∃ b, c.agent = some b ∧ a.same b) ∧
      ∀ p ∈ f.nodes, ∀ a, (f.bindAgent p.id a).find? p.id = some (p.bindAgent a) ∧
        ∀ c ∈ (p.bindAgent a).preorder, c.agent = some a := by
  have hempty : ∀ R, (empty : Forest β).Handed R := fun R => nofun
  refine ⟨fun p hp hbound c hc => ?_, fun hroots p hp a ha c hc => ?_, fun p hp a => ?_⟩
  · obtain ⟨a, ha⟩ := Option.isSome_iff_exists.1 hbound
    have hrun : (run empty w ops).1.Handed fun _ _ => True :=
      (hempty _).run (fun _ => trivial) linked_empty (.inl fun _ _ => trivial)
    obtain ⟨b, hb, -⟩ := (hrun.of_mem hp).below (fun _ => trivial) (fun _ _ _ _ _ => trivial) c hc a ha
    exact hb ▸ rfl
  · have hrun := (hempty fun a b => a.same b).run Agent.same_refl linked_empty (.inr hroots)
    exact (hrun.of_mem hp).below Agent.same_refl Agent.same_trans c hc a ha
  · have hlinked := linked_empty.run w ops
    have hbound : ((run empty w ops).1.bindAgent p.id a).Linked (0 + made ops) :=
      hlinked.perform (.bindAgent p.id a) w
    have hmem : p.bindAgent a ∈ ((run empty w ops).1.bindAgent p.id a).nodes :=
      (Node.exchanged_modifyAll (Node.bindAgent a) hlinked.nodup hp).subset
        (Node.mem_preorder_self _)
    have hid : (p.bindAgent a).id = p.id := by
      cases p <;> rfl
    refine ⟨?_, fun c hc => Node.agent_bindAgent hc⟩
    have hfind := hbound.find?_eq hmem
    rwa [hid] at hfind

/-- Two owners of trees. -/
def owner : Agent := ⟨"owner", 0, .integer 1⟩

def guest : Agent := ⟨"guest", 1, .integer 2⟩

/-- A sequence that is bound to the owner takes one that is bound to the guest, and a leaf comes below
    that one afterwards. -/
def takeover : List (Operation Builtin × World.Change Unit) :=
  [(.leaf .action (.constant .success), id), (.inner (.sequence 0) [1], id), (.bindAgent 2 owner, id),
    (.leaf .action (.constant .success), id), (.inner (.sequence 0) [3], id), (.bindAgent 4 guest, id),
    (.addChild 2 4, id), (.leaf .action (.constant .success), id), (.addChild 4 5, id)]

/-- Everything is the owner's then. -/
theorem takeover_bound :
    let f := (run empty (.start ()) takeover).1
    ∃ p, f.roots = [p] ∧ p.preorder.map Node.id = [2, 1, 4, 3, 5] ∧ p.agent = some owner ∧
      ∀ c ∈ p.preorder, ∃ b, c.agent = some b ∧ owner.same b := by
  have hroots : BindsRoots (β := Builtin) empty (.start ()) takeover := by
    simp only [takeover, bindsRoots_cons]
    refine ⟨nofun, nofun, ?_, nofun, nofun, ?_, nofun, nofun, nofun, bindsRoots_nil⟩
    · exact bindsRoot_of_mem List.mem_cons_self rfl
    · exact bindsRoot_of_mem (List.mem_cons_of_mem _ List.mem_cons_self) rfl
  refine ⟨_, rfl, rfl, rfl, ?_⟩
  refine (run_bound (World.start ()) takeover).2.1 hroots _ ?_ owner rfl
  exact (Node.sublist_preorderAll _).subset List.mem_cons_self

end BehaviorTree.Forest
