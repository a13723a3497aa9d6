import BehaviorTree.Proofs.Node.Links

namespace BehaviorTree

/-!
# Agents of a tree

The agent of a node is recorded in the node itself.  That the nodes below a bound node are bound too is
a matter of every node and its children: `Node.Handed R` says that each child of a bound node is bound
to an agent that is in the relation `R` to that of the node.

* `Handed.below` — then all nodes below a bound node are bound like that;
* `handed_of_view_eq` — only the shape of a tree and the agents of its nodes matter;
* `handed_bindAgent` — binding an agent to a tree hands it on;
* `handed_placedUnder`, `handed_removeChild` — so do the two edits of children;
* `Exchanged.handed` — an exchanged node has to be bound as the node above it demands.
-/

namespace Agent

theorem same_refl (a : Agent) : a.same a := beq_self_eq_true a.identity

theorem same_trans (a b c : Agent) (hab : a.same b) (hbc : b.same c) : a.same c :=
  beq_iff_eq.2 ((beq_iff_eq.1 hab).trans (beq_iff_eq.1 hbc))

end Agent

namespace Node

variable {β η : Type} {R : Agent → Agent → Prop}

/-- If the first node is bound, so is the second, to an agent in the relation `R` to its. -/
def HandsOn (R : Agent → Agent → Prop) (p c : Node β) : Prop :=
  ∀ a, p.agent = some a → ∃ b, c.agent = some b ∧ R a b

/-- Every node of the tree hands its binding on to its children. -/
def Handed (R : Agent → Agent → Prop) (n : Node β) : Prop :=
  ∀ p ∈ n.preorder, ∀ c ∈ p.children, HandsOn R p c

theorem HandsOn.congr {p p' c c' : Node β} (h : HandsOn R p c) (hp : p'.agent = p.agent)
    (hc : c'.agent = c.agent) : HandsOn R p' c' := by
  intro a ha
  rw [hc]
  exact h a (hp ▸ ha)

theorem handed_iff {n : Node β} :
    n.Handed R ↔ ∀ c ∈ n.children, HandsOn R n c ∧ c.Handed R := by
  unfold Handed
  rw [preorder_eq, List.forall_mem_cons]
  constructor
  · rintro ⟨hroot, hbelow⟩ c hc
    exact ⟨hroot c hc, fun p hp => hbelow p (mem_preorderAll.2 ⟨c, hc, hp⟩)⟩
  · intro h
    refine ⟨fun c hc => (h c hc).1, fun p hp => ?_⟩
    obtain ⟨c, hc, hp⟩ := mem_preorderAll.1 hp
    exact (h c hc).2 p hp

/-- In a tree that hands its bindings on, every node is bound as its root is. -/
theorem Handed.below (hrefl : ∀ a, R a a) (htrans : ∀ a b c, R a b → R b c → R a c) {n : Node β}
    (h : n.Handed R) : ∀ c ∈ n.preorder, HandsOn R n c := by
  induction n with
  | leaf info kind b =>
    intro c hc a ha
    rw [preorder, List.mem_singleton] at hc
    exact ⟨a, hc ▸ ha, hrefl a⟩
  | inner info control cs ih =>
    intro c hc a ha
    rw [preorder_eq, List.mem_cons] at hc
    rcases hc with rfl | hc
    · exact ⟨a, ha, hrefl a⟩
    · obtain ⟨d, hd, hc⟩ := mem_preorderAll.1 hc
      obtain ⟨hchild, hbelow⟩ := handed_iff.1 h d hd
      obtain ⟨b, hb, hab⟩ := hchild a ha
      obtain ⟨b', hb', hbb'⟩ := ih d hd hbelow c hc b hb
      exact ⟨b', hb', htrans a b b' hab hbb'⟩

/-! ### What has no part in it -/

/-- Trees of one shape whose nodes have the same agents hand on alike. -/
theorem handed_of_view_eq {n m : Node β} (hview : n.view agent = m.view agent) (h : n.Handed R) :
    m.Handed R := by
  refine (of_view_eq (R := fun n m => n.agent = m.agent ∧ (n.Handed R → m.Handed R)) ?_ hview).2 h
  intro n m hroot hchildren
  refine ⟨hroot, fun h => handed_iff.2 ?_⟩
  have hboth := (List.forall₂_and_left _ _).2 ⟨handed_iff.1 h, hchildren⟩
  have hright : List.Forall₂ (fun d c => (HandsOn R m d ∧ d.Handed R) ∧ d.agent = c.agent)
      m.children n.children :=
    List.Forall₂.flip (hboth.imp fun c d ⟨⟨hchild, hbelow⟩, hagent, hhanded⟩ =>
      ⟨⟨hchild.congr hroot.symm hagent.symm, hhanded hbelow⟩, hagent.symm⟩)
  exact ((List.forall₂_and_left _ _).1 hright).1

/-- The calls change no binding. -/
theorem steady_agent [Behavior β η] : Steady η (agent : Node β → Option Agent) where
  inner _ _ _ _ _ _ := rfl
  tick _ _ _ _ _ := rfl
  reset _ _ _ _ := rfl
  cancel _ _ _ _ := rfl

theorem view_agent_setName (name : String) (n : Node β) :
    (n.setName name).view agent = n.view agent := by
  cases n <;> simp only [setName, withInfo, view_leaf, view_inner] <;> rfl

theorem view_agent_setParent (parent : Option NodeId) (n : Node β) :
    (n.setParent parent).view agent = n.view agent := by
  cases n <;> simp only [setParent, withInfo, view_leaf, view_inner] <;> rfl

theorem view_agent_setProperty [Behavior β η] (key : String) (value : PropertyValue) (n : Node β)
    (h : η) : (n.setProperty key value h).1.view agent = n.view agent := by
  cases n <;> simp only [setProperty, view_leaf, view_inner] <;> rfl

/-! ### Bindings and edits -/

/-- Binding an agent reaches every node of a tree. -/
theorem agent_bindAgent {a : Agent} {n c : Node β} (hc : c ∈ (n.bindAgent a).preorder) :
    c.agent = some a := by
  induction n with
  | leaf info kind b =>
    rw [bindAgent, preorder, List.mem_singleton] at hc
    rw [hc]
    rfl
  | inner info control cs ih =>
    rw [bindAgent, bindAgentAll_eq_map, preorder_eq, List.mem_cons] at hc
    rcases hc with rfl | hc
    · rfl
    · obtain ⟨d, hd, hc⟩ := mem_preorderAll.1 hc
      obtain ⟨e, he, rfl⟩ := List.mem_map.1 hd
      exact ih e he hc

theorem handed_bindAgent (hrefl : ∀ a, R a a) (a : Agent) (n : Node β) :
    (n.bindAgent a).Handed R := by
  intro p hp c hc b hb
  have hbelow : c ∈ preorderAll [n.bindAgent a] := by
    have hmem : p ∈ preorderAll [n.bindAgent a] := mem_preorderAll.2 ⟨_, List.mem_cons_self, hp⟩
    refine (preorder_sublist hmem).subset ?_
    rw [preorder_eq]
    exact List.mem_cons_of_mem _ ((sublist_preorderAll p.children).subset hc)
  obtain ⟨d, hd, hc⟩ := mem_preorderAll.1 hbelow
  obtain rfl := List.mem_singleton.1 hd
  obtain rfl : a = b := Option.some.inj ((agent_bindAgent hp).symm.trans hb)
  exact ⟨a, agent_bindAgent hc, hrefl a⟩

/-- A tree that is put below a node is bound as the node is. -/
theorem handed_placedUnder (hrefl : ∀ a, R a a) (p : Node β) {c : Node β} (hc : c.Handed R) :
    (p.placedUnder c).Handed R ∧ HandsOn R p (p.placedUnder c) := by
  unfold placedUnder
  dsimp only
  split
  · next a ha =>
    refine ⟨handed_bindAgent hrefl a _, fun b hb => ?_⟩
    obtain rfl : a = b := Option.some.inj (ha.symm.trans hb)
    exact ⟨a, agent_bindAgent (mem_preorder_self _), hrefl a⟩
  · next hnone =>
    refine ⟨handed_of_view_eq (view_agent_setParent _ c).symm hc, fun b hb => ?_⟩
    exact absurd (hnone.symm.trans hb) nofun

/-- The node with other children hands its binding on if it does to these. -/
theorem handed_withChildren {p : Node β} {ds : List (Node β)}
    (h : ∀ d ∈ ds, HandsOn R p d ∧ d.Handed R) : (p.withChildren ds).Handed R := by
  cases p with
  | leaf info kind b => exact handed_iff.2 nofun
  | inner info control cs =>
    exact handed_iff.2 fun d hd => ⟨(h d hd).1.congr rfl rfl, (h d hd).2⟩

/-- A child that is taken out keeps its bindings, and so does the node that it was taken from. -/
theorem handed_removeChild {p c p' : Node β} {i : NodeId} (hp : p.Handed R)
    (h : p.removeChild? i = some (c, p')) : c.Handed R ∧ p'.Handed R ∧ p'.agent = p.agent := by
  cases p with
  | leaf info kind b => cases h
  | inner info control cs =>
    obtain ⟨d, hd, rfl, ds, rfl, hds⟩ := mem_of_removeChild h
    have hchildren := handed_iff.1 hp
    refine ⟨handed_of_view_eq (view_agent_setParent _ d).symm (hchildren d hd).2, ?_, rfl⟩
    exact handed_withChildren (p := inner info control cs) fun e he => hchildren e (hds e he)

namespace Exchanged

variable {p p' : Node β} {cs ds : List (Node β)}

/-- A node above hands its binding on after an exchange if the new node takes over from it as the old
    one did. -/
theorem handsOn (h : Exchanged p p' cs ds) (hover : ∀ q, HandsOn R q p → HandsOn R q p')
    {q q' : Node β} (hq : q'.agent = q.agent) (hcs : ∀ c ∈ cs, HandsOn R q c) :
    ∀ d ∈ ds, HandsOn R q' d := by
  have hds : ∀ d ∈ ds, HandsOn R q d := by
    cases h with
    | here before after =>
      rw [List.forall_mem_append, List.forall_mem_cons] at hcs ⊢
      exact ⟨hcs.1, hover q hcs.2.1, hcs.2.2⟩
    | inside before after hinside =>
      rw [List.forall_mem_append, List.forall_mem_cons] at hcs ⊢
      exact ⟨hcs.1, hcs.2.1.congr rfl rfl, hcs.2.2⟩
  exact fun d hd => (hds d hd).congr hq rfl

/-- So bindings are handed on after an exchange if the new node does it, and takes over from the nodes
    above as the old one did. -/
theorem handed (h : Exchanged p p' cs ds) (hcs : ∀ c ∈ cs, c.Handed R) (hp' : p'.Handed R)
    (hover : ∀ q, HandsOn R q p → HandsOn R q p') : ∀ d ∈ ds, d.Handed R := by
  induction h with
  | here before after =>
    rw [List.forall_mem_append, List.forall_mem_cons] at hcs ⊢
    exact ⟨hcs.1, hp', hcs.2.2⟩
  | @inside info control cs ds before after hinside ih =>
    rw [List.forall_mem_append, List.forall_mem_cons] at hcs ⊢
    refine ⟨hcs.1, ?_, hcs.2.2⟩
    have hchildren := handed_iff.1 hcs.2.1
    have hbelow := ih fun c hc => (hchildren c hc).2
    have hroot : ∀ d ∈ ds, HandsOn R (.inner info control ds) d :=
      hinside.handsOn hover rfl fun c hc => (hchildren c hc).1
    exact handed_iff.2 fun d hd => ⟨hroot d hd, hbelow d hd⟩

end Exchanged

end Node

end BehaviorTree
