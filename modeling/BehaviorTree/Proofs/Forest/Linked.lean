import BehaviorTree.Proofs.Forest.Operation
import BehaviorTree.Proofs.Node.Links
import Mathlib.Data.List.Range

namespace BehaviorTree.Forest

/-!
# The nodes of a host form a forest

Parents are recorded as identities, in the child, while children are held by their parents.
`Forest.Linked` says that the two agree, that every node is in the forest once, and that no node has
more children than it takes.

* `Sound` — the same about links, which does not depend on the order in which they are listed;
* `Linked.modify`, `Linked.create`, `Linked.addChildren` — what changes no link keeps a forest linked,
  and so do new nodes;
* `Linked.addChild?_of_room`, `Linked.addChild?_of_full`, `Linked.removeChild?_of_mem` — what the two
  edits do, at any depth;
* `Linked.perform` — every operation keeps a forest linked;
* `run_linked` — all of this for the forest after any operations.
-/

open Node (Link stub link linksAll placement)

variable {β η : Type}

/-- The nodes of a forest. -/
def nodes (f : Forest β) : List (Node β) := Node.preorderAll f.roots

/-- A forest in which `made` nodes were made, and all links are right. -/
structure Linked (made : Nat) (f : Forest β) : Prop where
  next : f.next = made + 1
  /-- Every node that was made is there, and it is there once. -/
  present : (f.nodes.map Node.id).Perm (List.range' 1 made)
  roots : ∀ n ∈ f.roots, n.parent = none
  children : ∀ p ∈ f.nodes, ∀ c ∈ p.children, c.parent = some p.id
  capacity : ∀ p ∈ f.nodes, ∀ bound, p.capacity = some bound → p.children.length ≤ bound

/-! ### Links that are right -/

/-- Roots and links of a forest with `made` nodes are right. -/
structure Sound (made : Nat) (roots : List (NodeId × Option NodeId)) (ls : List Link) : Prop where
  present : (ls.map Link.id).Perm (List.range' 1 made)
  roots : ∀ s ∈ roots, s.2 = none
  children : ∀ l ∈ ls, ∀ s ∈ l.children, s.2 = some l.id
  capacity : ∀ l ∈ ls, ∀ bound, l.capacity = some bound → l.children.length ≤ bound

theorem linked_iff {k : Nat} {f : Forest β} :
    f.Linked k ↔ f.next = k + 1 ∧ Sound k (f.roots.map stub) (linksAll f.roots) := by
  have hids : (linksAll f.roots).map Link.id = f.nodes.map Node.id := Node.map_id_links f.roots
  constructor
  · intro h
    refine ⟨h.next, hids ▸ h.present, ?_, ?_, ?_⟩
    · exact List.forall_mem_map.2 h.roots
    · refine List.forall_mem_map.2 fun p hp => List.forall_mem_map.2 ?_
      exact h.children p hp
    · refine List.forall_mem_map.2 fun p hp bound hbound => ?_
      rw [link, List.length_map]
      exact h.capacity p hp bound hbound
  · rintro ⟨hnext, h⟩
    refine ⟨hnext, hids ▸ h.present, List.forall_mem_map.1 h.roots, fun p hp => ?_, ?_⟩
    · exact List.forall_mem_map.1 (List.forall_mem_map.1 h.children p hp)
    · intro p hp bound hbound
      have hle := List.forall_mem_map.1 h.capacity p hp bound hbound
      rwa [link, List.length_map] at hle

theorem Sound.perm {k : Nat} {roots : List (NodeId × Option NodeId)} {ls ls' : List Link}
    (h : Sound k roots ls) (hperm : ls.Perm ls') : Sound k roots ls' where
  present := (hperm.map Link.id).symm.trans h.present
  roots := h.roots
  children l hl := h.children l (hperm.mem_iff.2 hl)
  capacity l hl := h.capacity l (hperm.mem_iff.2 hl)

/-- Other roots and other children of one node are as good, if they have recorded no parent and that
    one. -/
theorem Sound.relink {k : Nat} {roots roots' : List (NodeId × Option NodeId)} {l : Link}
    {ls : List Link} (h : Sound k roots (l :: ls)) (hroots : ∀ s ∈ roots', s.2 = none)
    (kids : List (NodeId × Option NodeId)) (hkids : ∀ s ∈ kids, s.2 = some l.id)
    (hcapacity : ∀ bound, l.capacity = some bound → kids.length ≤ bound) :
    Sound k roots' ({ l with children := kids } :: ls) where
  present := h.present
  roots := hroots
  children := List.forall_mem_cons.2 ⟨hkids, (List.forall_mem_cons.1 h.children).2⟩
  capacity := List.forall_mem_cons.2 ⟨hcapacity, (List.forall_mem_cons.1 h.capacity).2⟩

/-! ### Nodes by identity -/

theorem find?_eq {f : Forest β} (hf : (f.nodes.map Node.id).Nodup) {p : Node β} (hp : p ∈ f.nodes) :
    f.find? p.id = some p := by
  unfold find?
  cases h : (Node.preorderAll f.roots).find? (·.id = p.id) with
  | none =>
    have hne := List.find?_eq_none.1 h p hp
    exact absurd (decide_eq_true rfl) hne
  | some q =>
    have hid : q.id = p.id := by simpa using List.find?_some h
    exact congrArg some (List.inj_on_of_nodup_map hf (List.mem_of_find?_eq_some h) hp hid)

/-- What becomes of a forest is what the parent makes of the tree, and the parent is exchanged in the
    others. -/
theorem addChild?_eq {f : Forest β} {before after : List (Node β)} {p c : Node β}
    (hspan : f.roots.span (·.id ≠ c.id) = (before, c :: after))
    (hnodup : ((Node.preorderAll (before ++ after)).map Node.id).Nodup)
    (hp : p ∈ Node.preorderAll (before ++ after)) :
    f.addChild? p.id c.id = some ((p.addChild c).2.isNone,
      { f with roots := Node.modifyAll p.id (fun _ => (p.addChild c).1) before ++
          (p.addChild c).2.toList ++ Node.modifyAll p.id (fun _ => (p.addChild c).1) after }) := by
  have hfind := find?_eq (f := ⟨before ++ after, f.next⟩) hnodup hp
  unfold addChild?
  rw [hspan]
  simp only [hfind, Option.map_some]

theorem addChild_of_some {f : Forest β} {i j : NodeId} {r : Bool × Forest β}
    (h : f.addChild? i j = some r) : f.addChild i j = r.2 := by
  rw [addChild, h]
  rfl

theorem of_find? {f : Forest β} {id : NodeId} {p : Node β} (h : f.find? id = some p) :
    p ∈ f.nodes ∧ p.id = id :=
  ⟨List.mem_of_find?_eq_some h, by simpa using List.find?_some h⟩

namespace Linked

variable {k : Nat} {f : Forest β} {p c : Node β}

theorem nodup (h : f.Linked k) : (f.nodes.map Node.id).Nodup :=
  h.present.nodup_iff.2 List.nodup_range'

theorem find?_eq (h : f.Linked k) (hp : p ∈ f.nodes) : f.find? p.id = some p :=
  Forest.find?_eq h.nodup hp

theorem nodup_roots (h : f.Linked k) : (f.roots.map Node.id).Nodup :=
  h.nodup.sublist ((Node.sublist_preorderAll f.roots).map Node.id)

theorem nodup_children (h : f.Linked k) (hp : p ∈ f.nodes) : (p.children.map Node.id).Nodup := by
  refine h.nodup.sublist (List.Sublist.map Node.id ?_)
  refine .trans ?_ (Node.preorder_sublist hp)
  rw [Node.preorder_eq]
  exact (Node.sublist_preorderAll p.children).cons p

/-- Of two nodes the one has recorded the other exactly when it is one of its children. -/
theorem parent_iff (h : f.Linked k) (hp : p ∈ f.nodes) (hc : c ∈ f.nodes) :
    c.parent = some p.id ↔ c ∈ p.children := by
  refine ⟨fun hparent => ?_, h.children p hp c⟩
  rcases Node.root_or_child hc with hroot | ⟨q, hq, hcq⟩
  · exact absurd (hparent.symm.trans (h.roots c hroot)) nofun
  · have hid : q.id = p.id := Option.some.inj ((h.children q hq c hcq).symm.trans hparent)
    exact List.inj_on_of_nodup_map h.nodup hq hp hid ▸ hcq

/-- A root is not below another one. -/
theorem not_mem_preorder (h : f.Linked k) (hp : p ∈ f.roots) (hc : c ∈ f.roots)
    (hne : p.id ≠ c.id) : p ∉ c.preorder := by
  intro hmem
  have hbelow : p ∈ Node.preorderAll [c] :=
    Node.mem_preorderAll.2 ⟨c, List.mem_cons_self, hmem⟩
  rcases Node.root_or_child hbelow with hroot | ⟨q, hq, hpq⟩
  · exact hne (congrArg Node.id (List.mem_singleton.1 hroot))
  · obtain ⟨d, hd, hqd⟩ := Node.mem_preorderAll.1 hq
    obtain rfl := List.mem_singleton.1 hd
    have hparent := h.children q ((Node.preorder_sublist_of_mem hc).subset hqd) p hpq
    exact absurd ((h.roots p hp).symm.trans hparent) nofun

/-! ### Operations that change no link -/

/-- Exchanging a node for one that has its links, identity and parent keeps a forest linked. -/
theorem modify (h : f.Linked k) {id : NodeId} {g : Node β → Node β}
    (hg : ∀ n ∈ f.nodes, n.id = id → (g n).view placement = n.view placement) :
    (f.modify id g).Linked k := by
  by_cases hid : id ∈ f.nodes.map Node.id
  · obtain ⟨p, hp, rfl⟩ := List.mem_map.1 hid
    obtain ⟨hstub, hlinks⟩ := Node.links_eq_of_view_eq (hg p hp rfl)
    have hexchanged := Node.exchanged_modifyAll g h.nodup hp
    obtain ⟨rest, hbefore, hafter⟩ := hexchanged.links hstub
    obtain ⟨hnext, hsound⟩ := linked_iff.1 h
    rw [hlinks] at hafter
    refine linked_iff.2 ⟨hnext, ?_⟩
    rw [Forest.modify, hexchanged.stubs hstub]
    exact hsound.perm (hbefore.trans hafter.symm)
  · rw [Forest.modify, Node.modifyAll_of_not_mem g hid]
    exact h

theorem change {σ : Type} (h : f.Linked k) (id : NodeId) {g : Node β → σ → Node β × σ}
    (hg : ∀ n s, (g n s).1.view placement = n.view placement) (s : σ) :
    (f.change id g s).1.Linked k := by
  unfold Forest.change
  cases hfind : f.find? id with
  | none => exact h
  | some p =>
    obtain ⟨hp, rfl⟩ := of_find? hfind
    refine h.modify fun n hn hid => ?_
    rw [List.inj_on_of_nodup_map h.nodup hn hp hid]
    exact hg p s

/-! ### New nodes -/

/-- A new node is a root without children, and no other node has its identity. -/
theorem create (h : f.Linked k) {make : NodeId → Node β} (hid : (make f.next).id = f.next)
    (hparent : (make f.next).parent = none) (hchildren : (make f.next).children = []) :
    (f.create make).2.Linked (k + 1) := by
  obtain ⟨hnext, hsound⟩ := linked_iff.1 h
  have hlinks : linksAll (f.roots ++ [make f.next]) =
      linksAll f.roots ++ [⟨f.next, (make f.next).capacity, []⟩] := by
    rw [Node.linksAll_append, Node.linksAll_cons, Node.links_eq, link, hchildren, hid]
    rfl
  refine linked_iff.2 ⟨congrArg (· + 1) hnext, ?_, ?_, ?_, ?_⟩
  · show ((linksAll (f.roots ++ [make f.next])).map Link.id).Perm _
    rw [hlinks, List.map_append, List.range'_concat, hnext, Nat.one_mul, Nat.add_comm 1 k]
    exact hsound.present.append_right _
  · show ∀ s ∈ (f.roots ++ [make f.next]).map stub, s.2 = none
    rw [List.map_append, List.forall_mem_append]
    exact ⟨hsound.roots, List.forall_mem_singleton.2 hparent⟩
  · show ∀ l ∈ linksAll (f.roots ++ [make f.next]), ∀ s ∈ l.children, s.2 = some l.id
    rw [hlinks, List.forall_mem_append]
    exact ⟨hsound.children, List.forall_mem_singleton.2 (List.forall_mem_nil _)⟩
  · show ∀ l ∈ linksAll (f.roots ++ [make f.next]), ∀ bound, l.capacity = some bound →
      l.children.length ≤ bound
    rw [hlinks, List.forall_mem_append]
    exact ⟨hsound.capacity, List.forall_mem_singleton.2 fun _ _ => Nat.zero_le _⟩

/-! ### Children added -/

/-- The nodes of a forest are those of one of its trees and those of the others. -/
theorem perm_nodes {before after : List (Node β)} (hroots : f.roots = before ++ c :: after) :
    f.nodes.Perm (c.preorder ++ Node.preorderAll (before ++ after)) := by
  rw [nodes, hroots, Node.preorderAll_append, Node.preorderAll_cons, Node.preorderAll_append]
  exact List.perm_append_comm_assoc _ _ _

/-- What is left without a root is in the forest, and not below this root. -/
theorem of_mem_rest (h : f.Linked k) {before after : List (Node β)}
    (hroots : f.roots = before ++ c :: after) (hp : p ∈ Node.preorderAll (before ++ after)) :
    p ∈ f.nodes ∧ p ∉ c.preorder := by
  have hnodes := perm_nodes hroots
  refine ⟨hnodes.mem_iff.2 (List.mem_append_right _ hp), fun hin => ?_⟩
  have hnodup := (hnodes.map Node.id).nodup_iff.1 h.nodup
  rw [List.map_append] at hnodup
  exact (List.nodup_append'.1 hnodup).2.2 (List.mem_map_of_mem hin) (List.mem_map_of_mem hp)

/-- Taking a root out of the forest leaves the nodes that are not below it. -/
theorem span_root (h : f.Linked k) (hc : c ∈ f.roots) (hp : p ∈ f.nodes) (hout : p ∉ c.preorder) :
    ∃ before after, f.roots.span (·.id ≠ c.id) = (before, c :: after) ∧
      f.roots = before ++ c :: after ∧ f.roots.filter (·.id ≠ c.id) = before ++ after ∧
      p ∈ Node.preorderAll (before ++ after) ∧
      ((Node.preorderAll (before ++ after)).map Node.id).Nodup := by
  obtain ⟨before, after, hroots, hspan, hfilter⟩ := Node.span_of_mem h.nodup_roots hc
  have hnodes := perm_nodes hroots
  refine ⟨before, after, hspan, hroots, hfilter, ?_, ?_⟩
  · exact (List.mem_append.1 (hnodes.mem_iff.1 hp)).resolve_left hout
  · have hnodup := (hnodes.map Node.id).nodup_iff.1 h.nodup
    rw [List.map_append] at hnodup
    exact (List.nodup_append'.1 hnodup).2.1

/-- A node with room takes a tree that it is not part of, at the end of its children. -/
theorem addChild?_of_room (h : f.Linked k) (hp : p ∈ f.nodes) (hc : c ∈ f.roots)
    (hout : p ∉ c.preorder) (hroom : p.hasRoom = true) :
    ∃ f' p', p.addChild c = (p', none) ∧ f.addChild? p.id c.id = some (true, f') ∧ f'.Linked k ∧
      f'.find? p.id = some p' ∧ p' = p.withChildren (p.children ++ [p.placedUnder c]) ∧
      p'.children = p.children ++ [p.placedUnder c] ∧
      f'.roots = (f.roots.filter (·.id ≠ c.id)).map (Node.modify p.id fun _ => p') := by
  obtain ⟨before, after, hspan, hroots, hfilter, hmem, hnodup⟩ := h.span_root hc hp hout
  obtain ⟨hadd, hchildren⟩ := Node.addChild_of_room hroom c
  obtain ⟨hlinks, hstub⟩ := Node.links_placedUnder p c
  obtain ⟨hnext, hsound⟩ := linked_iff.1 h
  -- the parent is exchanged in what is left when the child is taken out
  have hexchanged := Node.exchanged_modifyAll
    (fun _ => p.withChildren (p.children ++ [p.placedUnder c])) hnodup hmem
  obtain ⟨rest, hbefore, hafter⟩ := hexchanged.links_withChildren hchildren
  have hall : (linksAll f.roots).Perm (p.link :: (linksAll (p.children ++ [c]) ++ rest)) := by
    rw [hroots, Node.linksAll_append p.children, Node.linksAll_singleton, List.append_assoc]
    refine (Node.linksAll_middle before c after).trans ((hbefore.append_left c.links).trans ?_)
    exact List.perm_middle.trans ((List.perm_append_comm_assoc _ _ _).cons _)
  have hbelow : linksAll (p.children ++ [p.placedUnder c]) = linksAll (p.children ++ [c]) := by
    rw [Node.linksAll_append, Node.linksAll_append, Node.linksAll_singleton,
      Node.linksAll_singleton, hlinks]
  have hlinked : Linked k ⟨Node.modifyAll p.id
      (fun _ => p.withChildren (p.children ++ [p.placedUnder c])) (before ++ after), f.next⟩ := by
    refine linked_iff.2 ⟨hnext, ?_⟩
    rw [hbelow] at hafter
    refine Sound.perm (Sound.relink (hsound.perm hall) ?_ _ ?_ ?_) hafter.symm
    · rw [hexchanged.stubs (Node.stub_withChildren _ p), ← hfilter]
      intro s hs
      obtain ⟨d, hd, rfl⟩ := List.mem_map.1 hs
      exact h.roots d (List.mem_of_mem_filter hd)
    · rw [List.map_append, List.forall_mem_append, List.map_singleton, hstub]
      exact ⟨List.forall_mem_map.2 (h.children p hp), List.forall_mem_singleton.2 rfl⟩
    · intro bound hbound
      have hlt := Node.hasRoom_iff.1 hroom bound hbound
      rw [List.length_map, List.length_append, List.length_singleton]
      exact hlt
  refine ⟨_, _, hadd, ?_, hlinked, ?_, rfl, hchildren, ?_⟩
  · rw [addChild?_eq hspan hnodup hmem, hadd, Option.toList_none, List.append_nil,
      ← Node.modifyAll_append]
    rfl
  · have hfound := hlinked.find?_eq (hexchanged.subset (Node.mem_preorder_self _))
    rwa [Node.id_withChildren] at hfound
  · rw [hfilter, Node.modifyAll_eq_map]

/-- A node without room hands the tree back, and the tree is where it was, and as it was. -/
theorem addChild?_of_full (h : f.Linked k) (hp : p ∈ f.nodes) (hc : c ∈ f.roots)
    (hout : p ∉ c.preorder) (hroom : p.hasRoom = false) :
    f.addChild? p.id c.id = some (false, f) := by
  obtain ⟨before, after, hspan, hroots, -, hmem, hnodup⟩ := h.span_root hc hp hout
  have hsame : Node.modifyAll p.id (fun _ => p) (before ++ after) = before ++ after :=
    (Node.exchanged_modifyAll (fun _ => p) hnodup hmem).refl
  have hlength : (Node.modifyAll p.id (fun _ => p) before).length = before.length := by
    rw [Node.modifyAll_eq_map, List.length_map]
  obtain ⟨hbefore, hafter⟩ := List.append_inj (Node.modifyAll_append .. ▸ hsame) hlength
  rw [addChild?_eq hspan hnodup hmem, Node.addChild_of_full hroom, hbefore, hafter,
    Option.toList_some, List.append_assoc, List.singleton_append, ← hroots]
  rfl

/-- A tree is put below nothing but a node that is not part of it. -/
theorem addChild?_eq_some (h : f.Linked k) {i j : NodeId} {r : Bool × Forest β}
    (hadd : f.addChild? i j = some r) :
    ∃ p ∈ f.nodes, ∃ c ∈ f.roots, p.id = i ∧ c.id = j ∧ p ∉ c.preorder := by
  by_cases hroot : ∃ c ∈ f.roots, c.id = j
  · obtain ⟨c, hc, rfl⟩ := hroot
    obtain ⟨before, after, hroots, hspan, -⟩ := Node.span_of_mem h.nodup_roots hc
    unfold Forest.addChild? at hadd
    rw [hspan] at hadd
    obtain ⟨p, hfind, -⟩ := Option.map_eq_some_iff.1 hadd
    obtain ⟨hp, rfl⟩ := of_find? hfind
    obtain ⟨hmem, hout⟩ := h.of_mem_rest hroots hp
    exact ⟨p, hmem, c, hc, rfl, rfl, hout⟩
  · have hspan := Node.span_of_not_mem fun c hc hid => hroot ⟨c, hc, hid⟩
    unfold Forest.addChild? at hadd
    rw [hspan] at hadd
    cases hadd

/-- Whether a node takes a tree or hands it back, the forest stays linked. -/
theorem addChild (h : f.Linked k) (i j : NodeId) : (f.addChild i j).Linked k := by
  unfold Forest.addChild
  cases hadd : f.addChild? i j with
  | none => exact h
  | some r =>
    obtain ⟨p, hp, c, hc, rfl, rfl, hout⟩ := h.addChild?_eq_some hadd
    cases hroom : p.hasRoom with
    | true =>
      obtain ⟨f', _, _, hadd', hlinked, -⟩ := h.addChild?_of_room hp hc hout hroom
      exact Option.some.inj (hadd.symm.trans hadd') ▸ hlinked
    | false => exact Option.some.inj (hadd.symm.trans (h.addChild?_of_full hp hc hout hroom)) ▸ h

/-- Putting several trees below a node keeps a forest linked, whichever of them are refused. -/
theorem addChildren (h : f.Linked k) (i : NodeId) (kids : List NodeId) :
    (f.addChildren i kids).Linked k := by
  unfold Forest.addChildren
  induction kids generalizing f with
  | nil => exact h
  | cons j kids ih => exact ih (h.addChild i j)

/-- A root with room takes another root, and the other trees are roots still. -/
theorem addChild_root (h : f.Linked k) (hp : p ∈ f.roots) (hc : c ∈ f.roots) (hne : p.id ≠ c.id)
    (hroom : p.hasRoom = true) :
    ∃ f' p', f.addChild p.id c.id = f' ∧ f'.Linked k ∧ p' ∈ f'.roots ∧ p'.id = p.id ∧
      p'.capacity = p.capacity ∧ p'.children.map Node.id = p.children.map Node.id ++ [c.id] ∧
      ∀ d ∈ f.roots, d.id ≠ c.id → d.id ∈ f'.roots.map Node.id := by
  have hnode : p ∈ f.nodes := (Node.sublist_preorderAll _).subset hp
  obtain ⟨f', p', -, hadd, hlinked, hfind, heq, hchildren, hroots⟩ :=
    h.addChild?_of_room hnode hc (h.not_mem_preorder hp hc hne) hroom
  have hid : p'.id = p.id := (of_find? hfind).2
  have hplaced : (p.placedUnder c).id = c.id := congrArg Prod.fst (Node.links_placedUnder p c).2
  refine ⟨f', p', addChild_of_some hadd, hlinked, ?_, hid, ?_, ?_, fun d hd hdc => ?_⟩
  · rw [hroots]
    refine List.mem_map.2 ⟨p, List.mem_filter.2 ⟨hp, decide_eq_true hne⟩, ?_⟩
    exact Node.modify_self _ p
  · rw [heq, Node.capacity_withChildren]
  · rw [hchildren, List.map_append, List.map_singleton, hplaced]
  · refine List.mem_map.2 ⟨d.modify p.id fun _ => p', ?_, Node.id_modify hid d⟩
    rw [hroots]
    exact List.mem_map_of_mem (List.mem_filter.2 ⟨hd, decide_eq_true hdc⟩)

/-- A root with room for them takes other roots as its children, in their order. -/
theorem addChildren_of_room (h : f.Linked k) (hp : p ∈ f.roots) {kids : List NodeId}
    (hkids : kids.Nodup) (hroots : ∀ j ∈ kids, j ≠ p.id ∧ j ∈ f.roots.map Node.id)
    (hroom : ∀ bound, p.capacity = some bound → p.children.length + kids.length ≤ bound) :
    ∃ p' ∈ (f.addChildren p.id kids).roots, p'.id = p.id ∧
      p'.children.map Node.id = p.children.map Node.id ++ kids := by
  induction kids generalizing f p with
  | nil => exact ⟨p, hp, rfl, (List.append_nil _).symm⟩
  | cons j kids ih =>
    obtain ⟨hj, hrest⟩ := List.nodup_cons.1 hkids
    obtain ⟨⟨hne, hroot⟩, hothers⟩ := List.forall_mem_cons.1 hroots
    obtain ⟨c, hc, rfl⟩ := List.mem_map.1 hroot
    have hfree : p.hasRoom = true := by
      refine Node.hasRoom_iff.2 fun bound hbound => ?_
      have hle := hroom bound hbound
      rw [List.length_cons] at hle
      omega
    obtain ⟨f', p', hadd, hlinked, hp', hid, hcapacity, hchildren, hroots'⟩ :=
      h.addChild_root hp hc hne.symm hfree
    have hothers' : ∀ i ∈ kids, i ≠ p'.id ∧ i ∈ f'.roots.map Node.id := by
      intro i hi
      obtain ⟨hip, hmem⟩ := hothers i hi
      obtain ⟨d, hd, rfl⟩ := List.mem_map.1 hmem
      exact ⟨hid ▸ hip, hroots' d hd fun heq => hj (heq ▸ hi)⟩
    have hroom' : ∀ bound, p'.capacity = some bound →
        p'.children.length + kids.length ≤ bound := by
      intro bound hbound
      have hle := hroom bound (hcapacity ▸ hbound)
      have hlength := congrArg List.length hchildren
      rw [List.length_map, List.length_append, List.length_map, List.length_singleton] at hlength
      rw [List.length_cons] at hle
      omega
    obtain ⟨q, hq, hqid, hqchildren⟩ := ih hlinked hp' hrest hothers' hroom'
    refine ⟨q, ?_, hqid.trans hid, ?_⟩
    · rw [Forest.addChildren, List.foldl_cons, hadd, ← Forest.addChildren, ← hid]
      exact hq
    · rw [hqchildren, hchildren, List.append_assoc, List.singleton_append]

/-! ### Children taken out -/

/-- A direct child is taken out, and is a root then. -/
theorem removeChild?_of_mem (h : f.Linked k) (hp : p ∈ f.nodes) (hc : c ∈ p.children) :
    ∃ f' p', f.removeChild? p.id c.id = some f' ∧ f'.Linked k ∧ f'.find? p.id = some p' ∧
      p' = p.withChildren (p.children.filter (·.id ≠ c.id)) ∧
      p'.children = p.children.filter (·.id ≠ c.id) ∧ c.setParent none ∈ f'.roots := by
  obtain ⟨before, after, hsplit, -, hfilter⟩ := Node.span_of_mem (h.nodup_children hp) hc
  have hremove := Node.removeChild?_of_mem (h.nodup_children hp) hc
  rw [hfilter] at hremove ⊢
  have hchildren := Node.children_withChildren hc (before ++ after)
  obtain ⟨hnext, hsound⟩ := linked_iff.1 h
  have hexchanged :=
    Node.exchanged_modifyAll (fun _ => p.withChildren (before ++ after)) h.nodup hp
  obtain ⟨rest, hbefore, hafter⟩ := hexchanged.links_withChildren hchildren
  have hall : (linksAll f.roots).Perm
      (p.link :: (linksAll (before ++ after) ++ rest ++ c.links)) := by
    refine hbefore.trans (List.Perm.cons _ ?_)
    rw [hsplit]
    refine ((Node.linksAll_middle before c after).append_right rest).trans ?_
    rw [List.append_assoc]
    exact List.perm_append_comm
  let roots' := Node.modifyAll p.id (fun _ => p.withChildren (before ++ after)) f.roots
  have hall' : (linksAll (roots' ++ [c.setParent none])).Perm
      (⟨p.id, p.capacity, (before ++ after).map stub⟩ ::
        (linksAll (before ++ after) ++ rest ++ c.links)) := by
    rw [Node.linksAll_append, Node.linksAll_singleton, Node.links_setParent]
    exact hafter.append_right c.links
  have hmem : ∀ d ∈ before ++ after, d ∈ p.children := by
    intro d hd
    rw [← hfilter] at hd
    exact List.mem_of_mem_filter hd
  have hlinked : Linked k ⟨roots' ++ [c.setParent none], f.next⟩ := by
    refine linked_iff.2 ⟨hnext, ?_⟩
    refine Sound.perm (Sound.relink (hsound.perm hall) ?_ _ ?_ ?_) hall'.symm
    · have hroots' : roots'.map stub = f.roots.map stub :=
        hexchanged.stubs (Node.stub_withChildren _ p)
      rw [List.map_append, hroots', List.map_singleton, Node.stub_setParent, List.forall_mem_append]
      exact ⟨hsound.roots, List.forall_mem_singleton.2 rfl⟩
    · exact List.forall_mem_map.2 fun d hd => h.children p hp d (hmem d hd)
    · intro bound hbound
      have hle := h.capacity p hp bound hbound
      have hlength : (before ++ after).length ≤ p.children.length := by
        rw [← hfilter]
        exact List.length_filter_le _ _
      rw [List.length_map]
      omega
  refine ⟨_, _, ?_, hlinked, ?_, rfl, hchildren, List.mem_append_right _ List.mem_cons_self⟩
  · unfold Forest.removeChild?
    rw [h.find?_eq hp, Option.bind_some, hremove]
    rfl
  · have hfound := hlinked.find?_eq (p := p.withChildren (before ++ after)) ?_
    · rwa [Node.id_withChildren] at hfound
    · rw [nodes, Node.preorderAll_append, List.mem_append]
      exact .inl (hexchanged.subset (Node.mem_preorder_self _))

theorem removeChild?_of_not_mem (h : f.Linked k) (hp : p ∈ f.nodes) {i : NodeId}
    (hi : ∀ c ∈ p.children, c.id ≠ i) : f.removeChild? p.id i = none := by
  unfold Forest.removeChild?
  rw [h.find?_eq hp, Option.bind_some, Node.removeChild?_of_not_mem hi]
  rfl

theorem removeChild? (h : f.Linked k) {i j : NodeId} {f' : Forest β}
    (hremove : f.removeChild? i j = some f') : f'.Linked k := by
  obtain ⟨p, hfind, -⟩ := Option.bind_eq_some_iff.1 hremove
  obtain ⟨hp, rfl⟩ := of_find? hfind
  by_cases hchild : ∃ c ∈ p.children, c.id = j
  · obtain ⟨c, hc, rfl⟩ := hchild
    obtain ⟨_, _, hremove', hlinked, -⟩ := h.removeChild?_of_mem hp hc
    exact Option.some.inj (hremove.symm.trans hremove') ▸ hlinked
  · rw [h.removeChild?_of_not_mem hp fun c hc hid => hchild ⟨c, hc, hid⟩] at hremove
    cases hremove

/-! ### Operations -/

/-- Every operation keeps a forest linked, and makes at most one node. -/
theorem perform [Behavior β η] (h : f.Linked k) (op : Operation β) (w : World η) :
    (f.perform op w).1.Linked (k + op.makes.toNat) := by
  cases op with
  | leaf kind b =>
    have hmade : (f.create fun id => .ofBehavior id kind b).2.Linked (k + 1) := h.create rfl rfl rfl
    exact hmade
  | inner control kids =>
    have hmade : (f.create fun id => .ofControl id control).2.Linked (k + 1) := h.create rfl rfl rfl
    exact hmade.addChildren f.next kids
  | addChild i j => exact h.addChild i j
  | removeChild i j =>
    show ((f.removeChild? i j).getD f).Linked k
    cases hremove : f.removeChild? i j with
    | none => exact h
    | some f' => exact h.removeChild? hremove
  | setName i name => exact h.modify fun n _ _ => Node.view_setName name n
  | setProperty i key value => exact h.change i (Node.view_setProperty key value) w.host
  | bindAgent i a => exact h.modify fun n _ _ => Node.view_bindAgent a n
  | execute i now =>
    show Linked k ((f.execute i now w).elim (f, w) fun o => (o.next, o.world)).1
    unfold Forest.execute
    cases hfind : f.find? i with
    | none => exact h
    | some p =>
      obtain ⟨hp, rfl⟩ := of_find? hfind
      refine h.modify (g := fun _ => (p.execute now w).next) fun n hn hid => ?_
      rw [List.inj_on_of_nodup_map h.nodup hn hp hid]
      exact Node.steady_placement.view_execute now p w
  | reset i => exact h.change i Node.steady_placement.view_reset w.host
  | cancel i => exact h.change i Node.steady_placement.view_cancel w.host

end Linked

theorem linked_empty : (empty : Forest β).Linked 0 where
  next := rfl
  present := List.Perm.refl _
  roots := nofun
  children := nofun
  capacity := nofun

theorem Linked.run [Behavior β η] {k : Nat} {f : Forest β} (h : f.Linked k) (w : World η)
    (ops : List (Operation β × World.Change η)) : (f.run w ops).1.Linked (k + made ops) := by
  induction ops generalizing k f w with
  | nil => exact h
  | cons op ops ih =>
    obtain ⟨op, change⟩ := op
    have hstep := ih (h.perform op (change w)) (f.perform op (change w)).2
    have hmade : made ((op, change) :: ops) = op.makes.toNat + made ops := by
      unfold made
      rw [List.countP_cons, Nat.add_comm]
      cases op.makes <;> rfl
    rw [hmade, ← Nat.add_assoc]
    exact hstep

/-! ### Every forest of a host -/

/-- What comes of putting the root `c` below the node `p`.  With room for it, it is the last child, and
    the node is the same otherwise.  Without, the node and the tree that it hands back are what they
    were, links, agents, properties and progress included; and the forest around them is the same,
    with the tree at its old place among the roots. -/
structure Adding (η : Type) [Behavior β η] (f : Forest β) (p c : Node β) : Prop where
  accepted : p.hasRoom = true → ∃ f' p', p.addChild c = (p', none) ∧
    f.addChild? p.id c.id = some (true, f') ∧ f'.find? p.id = some p' ∧
    p' = p.withChildren p'.children ∧ p'.children = p.children ++ [p.placedUnder c] ∧
    ∀ w : World η, f.perform (.addChild p.id c.id) w = (f', w)
  refused : p.hasRoom = false → p.addChild c = (p, some c) ∧
    f.addChild? p.id c.id = some (false, f) ∧
    ∀ w : World η, f.perform (.addChild p.id c.id) w = (f, w)

/-- What comes of taking nodes out of the children of the node `p`.  A child is a root then, with
    everything below it as it was, and the other children stay in their order. -/
structure Removing (f : Forest β) (p : Node β) : Prop where
  child : ∀ c ∈ p.children, ∃ f' p', f.removeChild? p.id c.id = some f' ∧
    c.setParent none ∈ f'.roots ∧ f'.find? p.id = some p' ∧ p' = p.withChildren p'.children ∧
    p'.children = p.children.filter (·.id ≠ c.id)
  stranger : ∀ i, (∀ c ∈ p.children, c.id ≠ i) → f.removeChild? p.id i = none

theorem Linked.adding [Behavior β η] {k : Nat} {f : Forest β} (h : f.Linked k) {p c : Node β}
    (hp : p ∈ f.nodes) (hc : c ∈ f.roots) (hout : p ∉ c.preorder) : Adding η f p c where
  accepted hroom := by
    obtain ⟨f', p', hnode, hadd, -, hfind, heq, hchildren, -⟩ :=
      h.addChild?_of_room hp hc hout hroom
    exact ⟨f', p', hnode, hadd, hfind, hchildren ▸ heq, hchildren,
      fun w => congrArg (·, w) (addChild_of_some hadd)⟩
  refused hfull := by
    have hback := h.addChild?_of_full hp hc hout hfull
    exact ⟨Node.addChild_of_full hfull c, hback, fun w => congrArg (·, w) (addChild_of_some hback)⟩

theorem Linked.removing {k : Nat} {f : Forest β} (h : f.Linked k) {p : Node β} (hp : p ∈ f.nodes) :
    Removing f p where
  child c hc := by
    obtain ⟨f', p', hremove, -, hfind, heq, hchildren, hroot⟩ := h.removeChild?_of_mem hp hc
    exact ⟨f', p', hremove, hroot, hfind, hchildren ▸ heq, hchildren⟩
  stranger _ hi := h.removeChild?_of_not_mem hp hi

/-- A new node around trees is a root, and has them as its children. -/
theorem Linked.around [Behavior β η] {k : Nat} {f : Forest β} (h : f.Linked k) (control : Control)
    {kids : List NodeId} (hkids : kids.Nodup) (hroots : ∀ j ∈ kids, ∃ c ∈ f.roots, c.id = j)
    (hroom : ∀ bound, control.capacity = some bound → kids.length ≤ bound) (w : World η) :
    ∃ p ∈ (f.perform (.inner control kids) w).1.roots,
      p.id = f.next ∧ p.children.map Node.id = kids := by
  have hmade : (f.create fun id => .ofControl id control).2.Linked (k + 1) := h.create rfl rfl rfl
  have hroot : Node.ofControl f.next control ∈ (f.create fun id => .ofControl id control).2.roots :=
    List.mem_append_right _ List.mem_cons_self
  refine hmade.addChildren_of_room hroot hkids (fun j hj => ?_) fun bound hbound => ?_
  · obtain ⟨c, hc, rfl⟩ := hroots j hj
    -- the identity of the new node is that of no other
    have hmem : c.id ∈ List.range' 1 k :=
      h.present.subset (List.mem_map_of_mem ((Node.sublist_preorderAll f.roots).subset hc))
    have hlt : c.id < f.next := by
      rw [h.next, Nat.add_comm]
      exact (List.mem_range'_1.1 hmem).2
    exact ⟨Nat.ne_of_lt hlt, List.mem_map_of_mem (List.mem_append_left _ hc)⟩
  · show 0 + kids.length ≤ bound
    rw [Nat.zero_add]
    exact hroom bound hbound

/-- A decorator of the library has at most one child, and its leaves have none. -/
theorem Linked.length_children {k : Nat} {f : Forest β} (h : f.Linked k) {p : Node β}
    (hp : p ∈ f.nodes) : (p.kind.category = .decorator → p.children.length ≤ 1) ∧
      (p.kind = .action ∨ p.kind = .condition → p.children = []) := by
  have hcapacity := h.capacity p hp
  cases p with
  | leaf info kind b => exact ⟨fun _ => Nat.zero_le 1, fun _ => rfl⟩
  | inner info control cs =>
    constructor
    · intro hdecorator
      refine hcapacity 1 ?_
      cases control <;> first | rfl | cases hdecorator
    · intro hleaf
      cases control <;> cases hleaf <;> contradiction

/-- The nodes of a host always form a forest.  After any operations, every node that was made is in
    the forest once; a node has recorded another one as its parent exactly when it is one of its
    children, and roots have recorded none; no node has more children than it takes.  A root is put
    last below a node with room, and handed back by one without, which changes neither of the two; a
    node takes out its direct children and no other nodes; and a new node around trees has them
    all. -/
theorem run_linked [Behavior β η] (w : World η) (ops : List (Operation β × World.Change η)) :
    let f := (run empty w ops).1
    f.Linked (made ops) ∧
      (∀ p ∈ f.nodes, ∀ c ∈ f.nodes, c.parent = some p.id ↔ c ∈ p.children) ∧
      (∀ p ∈ f.nodes, (p.kind.category = .decorator → p.children.length ≤ 1) ∧
        (p.kind = .action ∨ p.kind = .condition → p.children = [])) ∧
      (∀ p ∈ f.nodes, ∀ c ∈ f.roots, p ∉ c.preorder → Adding η f p c) ∧
      (∀ p ∈ f.nodes, Removing f p) ∧
      ∀ control kids (v : World η), kids.Nodup → (∀ j ∈ kids, ∃ c ∈ f.roots, c.id = j) →
        (∀ bound, control.capacity = some bound → kids.length ≤ bound) →
        ∃ p ∈ (f.perform (.inner control kids) v).1.roots,
          p.id = f.next ∧ p.children.map Node.id = kids := by
  have h := linked_empty.run w ops
  rw [Nat.zero_add] at h
  exact ⟨h, fun p hp c hc => h.parent_iff hp hc, fun p hp => h.length_children hp,
    fun p hp c hc hout => h.adding hp hc hout, fun p hp => h.removing hp,
    fun control kids v hkids hroots hroom => h.around control hkids hroots hroom v⟩

/-- An inverter around one leaf, and another leaf beside it. -/
def crowded : List (Operation Builtin × World.Change Unit) :=
  [(.leaf .action (.constant .success), id), (.inner .inverter [1], id),
    (.leaf .condition (.constant .failure), id)]

/-- The inverter of this forest. -/
def occupied : Node Builtin :=
  .inner ⟨2, "Inverter", none, .empty, none⟩ .inverter
    [.leaf ⟨1, "Action", some 2, .empty, none⟩ .action (.constant .success)]

/-- The other leaf of this forest. -/
def waiting : Node Builtin :=
  .leaf ⟨3, "Condition", none, .empty, none⟩ .condition (.constant .failure)

/-- The other leaf is handed back as long as the first one is there. -/
theorem crowded_refuses :
    let f := (run empty (.start ()) crowded).1
    f.roots = [occupied, waiting] ∧ occupied.addChild waiting = (occupied, some waiting) ∧
      f.addChild? 2 3 = some (false, f) ∧
      f.perform (.addChild 2 3) (World.start ()) = (f, .start ()) ∧
      ∃ f' p', f.removeChild? 2 1 = some f' ∧ f'.find? 2 = some p' ∧ p'.children = [] := by
  obtain ⟨-, -, -, hadding, hremoving, -⟩ := run_linked (World.start ()) crowded
  have hroots : (run empty (.start ()) crowded).1.roots = [occupied, waiting] := rfl
  have hoccupied : occupied ∈ (run empty (.start ()) crowded).1.nodes := by
    rw [nodes, hroots, Node.preorderAll_cons]
    exact List.mem_append_left _ (Node.mem_preorder_self occupied)
  have hwaiting : waiting ∈ (run empty (.start ()) crowded).1.roots := by
    rw [hroots]
    exact List.mem_cons_of_mem _ List.mem_cons_self
  have hout : occupied ∉ waiting.preorder := by
    rw [waiting, Node.preorder, List.mem_singleton]
    intro heq
    exact absurd (congrArg Node.id heq) (by decide)
  obtain ⟨hnode, hforest, hperform⟩ := (hadding occupied hoccupied waiting hwaiting hout).refused rfl
  refine ⟨hroots, hnode, hforest, hperform _, ?_⟩
  obtain ⟨f', p', hremove, -, hfind, -, hchildren⟩ :=
    (hremoving occupied hoccupied).child _ List.mem_cons_self
  exact ⟨f', p', hremove, hfind, hchildren⟩

end BehaviorTree.Forest
