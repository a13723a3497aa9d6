import BehaviorTree.Proofs.Node.Design
import Mathlib.Data.List.Nodup
import Mathlib.Data.List.Perm.Basic
import Mathlib.Data.List.TakeWhile

namespace BehaviorTree.Node

/-!
# Links

A node records the identity of its parent, and a parent holds its children.  `Node.link` is what one
node records about its place; the parent of a child is part of the link of the node that holds the
child, so that putting a tree elsewhere changes two links and no more.

* `links_eq_of_view_eq` — trees with the same shape, identities, parents and capacities have the same
  links;
* `Exchanged` — one node, with everything below it, was exchanged for another one at its place, and
  `exchanged_modifyAll`: this is what changing the node with an identity does;
* `Exchanged.links` — an exchange changes the links of the two trees and nothing around them;
* `addChild_of_room`, `removeChild?_of_mem` — what the two edits of children make of a node.
-/

variable {α β η : Type}

/-! ### Nodes below nodes -/

theorem preorderAll_cons (c : Node β) (cs : List (Node β)) :
    preorderAll (c :: cs) = c.preorder ++ preorderAll cs := by
  rw [preorderAll]

theorem preorderAll_append (cs ds : List (Node β)) :
    preorderAll (cs ++ ds) = preorderAll cs ++ preorderAll ds := by
  simp only [preorderAll_eq_flatMap, List.flatMap_append]

theorem mem_preorder_self (n : Node β) : n ∈ n.preorder := by
  rw [preorder_eq]
  exact List.mem_cons_self

theorem mem_preorderAll {m : Node β} {cs : List (Node β)} :
    m ∈ preorderAll cs ↔ ∃ c ∈ cs, m ∈ c.preorder := by
  rw [preorderAll_eq_flatMap, List.mem_flatMap]

theorem sublist_preorderAll (cs : List (Node β)) : cs.Sublist (preorderAll cs) := by
  induction cs with
  | nil => exact List.nil_sublist _
  | cons c cs ih =>
    rw [preorderAll_cons, preorder_eq, List.cons_append]
    exact (ih.trans (List.sublist_append_right _ _)).cons_cons c

theorem preorder_sublist_of_mem {c : Node β} {cs : List (Node β)} (h : c ∈ cs) :
    c.preorder.Sublist (preorderAll cs) := by
  obtain ⟨before, after, rfl⟩ := List.append_of_mem h
  rw [preorderAll_append, preorderAll_cons]
  exact (List.sublist_append_left _ _).trans (List.sublist_append_right _ _)

/-- What stands below a node of some trees stands in these trees. -/
theorem preorder_sublist {p : Node β} {cs : List (Node β)} (h : p ∈ preorderAll cs) :
    p.preorder.Sublist (preorderAll cs) := by
  have below : ∀ n : Node β, p ∈ n.preorder → p.preorder.Sublist n.preorder := by
    intro n
    induction n with
    | leaf info kind b =>
      intro hp
      obtain rfl := List.mem_singleton.1 (by rwa [preorder] at hp)
      exact List.Sublist.refl _
    | inner info control cs ih =>
      intro hp
      rcases List.mem_cons.1 (preorder_eq _ ▸ hp) with rfl | hp
      · exact List.Sublist.refl _
      · obtain ⟨c, hc, hp⟩ := mem_preorderAll.1 hp
        rw [preorder_eq (.inner info control cs)]
        exact ((ih c hc hp).trans (preorder_sublist_of_mem hc)).cons _
  obtain ⟨c, hc, hp⟩ := mem_preorderAll.1 h
  exact (below c hp).trans (preorder_sublist_of_mem hc)

/-- A node of some trees is one of their roots or a child of one of their nodes. -/
theorem root_or_child {c : Node β} {cs : List (Node β)} (h : c ∈ preorderAll cs) :
    c ∈ cs ∨ ∃ p ∈ preorderAll cs, c ∈ p.children := by
  have below : ∀ n : Node β, c ∈ n.preorder → c = n ∨ ∃ p ∈ n.preorder, c ∈ p.children := by
    intro n
    induction n with
    | leaf info kind b =>
      intro hc
      exact .inl (List.mem_singleton.1 (by rwa [preorder] at hc))
    | inner info control cs ih =>
      intro hc
      rw [preorder_eq]
      rcases List.mem_cons.1 (preorder_eq _ ▸ hc) with rfl | hc
      · exact .inl rfl
      · obtain ⟨d, hd, hcd⟩ := mem_preorderAll.1 hc
        rcases ih d hd hcd with rfl | ⟨p, hp, hcp⟩
        · exact .inr ⟨_, List.mem_cons_self, hd⟩
        · exact .inr ⟨p, List.mem_cons_of_mem _ (mem_preorderAll.2 ⟨d, hd, hp⟩), hcp⟩
  obtain ⟨n, hn, hcn⟩ := mem_preorderAll.1 h
  rcases below n hcn with rfl | ⟨p, hp, hcp⟩
  · exact .inl hn
  · exact .inr ⟨p, mem_preorderAll.2 ⟨n, hn, hp⟩, hcp⟩

/-! ### Links -/

/-- A node as its parent sees it: its identity, and the parent that it has recorded. -/
def stub (n : Node β) : NodeId × Option NodeId := (n.id, n.parent)

/-- What a node records about its place: its identity, its capacity and its children. -/
structure Link where
  id : NodeId
  capacity : Option Nat
  children : List (NodeId × Option NodeId)

/-- The link of a node. -/
def link (n : Node β) : Link := ⟨n.id, n.capacity, n.children.map stub⟩

/-- The links of several trees, each before those below it. -/
def linksAll (cs : List (Node β)) : List Link := (preorderAll cs).map link

/-- The links of a tree. -/
def links (n : Node β) : List Link := n.preorder.map link

theorem links_eq (n : Node β) : n.links = n.link :: linksAll n.children := by
  rw [links, preorder_eq, List.map_cons, linksAll]

theorem linksAll_cons (c : Node β) (cs : List (Node β)) :
    linksAll (c :: cs) = c.links ++ linksAll cs := by
  rw [linksAll, preorderAll_cons, List.map_append, links, linksAll]

theorem linksAll_singleton (c : Node β) : linksAll [c] = c.links := by
  rw [linksAll_cons]
  exact List.append_nil _

theorem linksAll_append (cs ds : List (Node β)) :
    linksAll (cs ++ ds) = linksAll cs ++ linksAll ds := by
  rw [linksAll, preorderAll_append, List.map_append, linksAll, linksAll]

/-- A tree among others takes its links with it. -/
theorem linksAll_middle (before : List (Node β)) (c : Node β) (after : List (Node β)) :
    (linksAll (before ++ c :: after)).Perm (c.links ++ linksAll (before ++ after)) := by
  rw [linksAll_append, linksAll_cons, linksAll_append]
  exact List.perm_append_comm_assoc _ _ _

theorem linksAll_eq_flatten (cs : List (Node β)) : linksAll cs = (cs.map links).flatten := by
  induction cs with
  | nil => rfl
  | cons c cs ih => rw [linksAll_cons, ih, List.map_cons, List.flatten_cons]

theorem map_id_links (cs : List (Node β)) :
    (linksAll cs).map Link.id = (preorderAll cs).map id := by
  rw [linksAll, List.map_map]
  rfl

/-! ### What has no part in links -/

/-- What of a node the links of its tree depend on. -/
def placement (n : Node β) : NodeId × Option NodeId × Option Nat := (n.id, n.parent, n.capacity)

/-- Trees with the same shape, identities, parents and capacities have the same links. -/
theorem links_eq_of_view_eq {n m : Node β} (h : n.view placement = m.view placement) :
    n.stub = m.stub ∧ n.links = m.links := by
  refine of_view_eq (R := fun n m => n.stub = m.stub ∧ n.links = m.links) ?_ h
  intro n m hroot hchildren
  obtain ⟨hid, hparent, hcapacity⟩ : n.id = m.id ∧ n.parent = m.parent ∧ n.capacity = m.capacity := by
    simpa [placement] using hroot
  have hstubs := forall₂_map_eq_iff.1 (hchildren.imp fun _ _ h => h.1)
  have hlinks := forall₂_map_eq_iff.1 (hchildren.imp fun _ _ h => h.2)
  refine ⟨Prod.ext hid hparent, ?_⟩
  rw [links_eq, links_eq m, link, link, linksAll_eq_flatten, linksAll_eq_flatten, hid, hcapacity,
    hstubs, hlinks]

/-- The calls change nothing of a placement. -/
theorem steady_placement [Behavior β η] : Steady η (placement : Node β → _) where
  inner info c d cs ds h := by
    have hcapacity : c.capacity = d.capacity := by
      cases c <;> cases d <;> simp_all [Control.settings, Control.capacity]
    exact congrArg (fun k => (info.id, info.parent, k)) hcapacity
  tick _ _ _ _ _ := rfl
  reset _ _ _ _ := rfl
  cancel _ _ _ _ := rfl

theorem view_setName (name : String) (n : Node β) :
    (n.setName name).view placement = n.view placement := by
  cases n <;> simp only [setName, withInfo, view_leaf, view_inner] <;> rfl

theorem view_setProperty [Behavior β η] (key : String) (value : PropertyValue) (n : Node β) (h : η) :
    (n.setProperty key value h).1.view placement = n.view placement := by
  cases n with
  | leaf info kind b => simp only [setProperty, view_leaf]; rfl
  | inner info control cs =>
    have hcapacity : (control.configure key value).capacity = control.capacity := by
      cases control <;> rfl
    simp only [setProperty, view_inner]
    exact congrArg (fun k => Rose.node (info.id, info.parent, k) _) hcapacity

theorem view_bindAgent (a : Agent) (n : Node β) :
    (n.bindAgent a).view placement = n.view placement := by
  induction n with
  | leaf info kind b => simp only [bindAgent, view_leaf]; rfl
  | inner info control cs ih =>
    have hchildren : (cs.map (bindAgent a)).map (view placement) = cs.map (view placement) := by
      rw [List.map_map]
      exact List.map_congr_left ih
    rw [bindAgent, bindAgentAll_eq_map, view_inner, view_inner, hchildren]
    rfl

/-! ### The links of a child -/

/-- Another parent of its root changes no link of a tree. -/
theorem links_setParent (parent : Option NodeId) (n : Node β) :
    (n.setParent parent).links = n.links := by
  rw [links_eq, links_eq n]
  cases n <;> rfl

theorem stub_setParent (parent : Option NodeId) (n : Node β) :
    (n.setParent parent).stub = (n.id, parent) := by
  cases n <;> rfl

/-- A tree as it stands below another node keeps its links, and has recorded that node. -/
theorem links_placedUnder (p c : Node β) :
    (p.placedUnder c).links = c.links ∧ (p.placedUnder c).stub = (c.id, some p.id) := by
  unfold placedUnder
  dsimp only
  split
  · next a _ =>
    obtain ⟨hstub, hlinks⟩ := links_eq_of_view_eq (view_bindAgent a (c.setParent (some p.id)))
    exact ⟨hlinks.trans (links_setParent _ c), hstub.trans (stub_setParent _ c)⟩
  · exact ⟨links_setParent _ c, stub_setParent _ c⟩

/-- The node with other children; a leaf has none. -/
def withChildren (ds : List (Node β)) : Node β → Node β
  | .leaf info kind b => .leaf info kind b
  | .inner info control _ => .inner info control ds

theorem children_withChildren {p c : Node β} (hc : c ∈ p.children) (ds : List (Node β)) :
    (p.withChildren ds).children = ds := by
  cases p with
  | leaf info kind b => cases hc
  | inner info control cs => rfl

theorem info_withChildren (ds : List (Node β)) (p : Node β) : (p.withChildren ds).info = p.info := by
  cases p <;> rfl

theorem id_withChildren (ds : List (Node β)) (p : Node β) : (p.withChildren ds).id = p.id :=
  congrArg NodeInfo.id (info_withChildren ds p)

theorem stub_withChildren (ds : List (Node β)) (p : Node β) : (p.withChildren ds).stub = p.stub :=
  congrArg (fun i : NodeInfo => (i.id, i.parent)) (info_withChildren ds p)

theorem capacity_withChildren (ds : List (Node β)) (p : Node β) :
    (p.withChildren ds).capacity = p.capacity := by
  cases p <;> rfl

/-! ### Edits of the children -/

/-- A node that has room takes a tree at the end of its children. -/
theorem addChild_of_room {p : Node β} (h : p.hasRoom = true) (c : Node β) :
    p.addChild c = (p.withChildren (p.children ++ [p.placedUnder c]), none) ∧
      (p.withChildren (p.children ++ [p.placedUnder c])).children =
        p.children ++ [p.placedUnder c] := by
  cases p with
  | leaf info kind b => cases h
  | inner info control cs => exact ⟨if_pos h, rfl⟩

theorem hasRoom_iff {p : Node β} :
    p.hasRoom = true ↔ ∀ bound, p.capacity = some bound → p.children.length < bound := by
  unfold hasRoom
  cases p.capacity <;> simp

/-- Where identities are different, the first node with an identity is the one that has it. -/
theorem span_of_mem {cs : List (Node β)} (hcs : (cs.map id).Nodup) {c : Node β} (hc : c ∈ cs) :
    ∃ before after, cs = before ++ c :: after ∧
      cs.span (·.id ≠ c.id) = (before, c :: after) ∧
      cs.filter (·.id ≠ c.id) = before ++ after := by
  obtain ⟨before, after, rfl⟩ := List.append_of_mem hc
  rw [List.map_append, List.map_cons, List.nodup_middle, List.nodup_cons, List.mem_append] at hcs
  have hbefore : ∀ d ∈ before, decide (d.id ≠ c.id) = true := by
    intro d hd
    exact decide_eq_true fun h => hcs.1 (.inl (h ▸ List.mem_map_of_mem hd))
  have hafter : ∀ d ∈ after, decide (d.id ≠ c.id) = true := by
    intro d hd
    exact decide_eq_true fun h => hcs.1 (.inr (h ▸ List.mem_map_of_mem hd))
  refine ⟨before, after, rfl, ?_, ?_⟩
  · rw [List.span_eq_takeWhile_dropWhile, List.takeWhile_append_of_pos hbefore,
      List.dropWhile_append_of_pos hbefore, List.takeWhile_cons_of_neg (by simp),
      List.dropWhile_cons_of_neg (by simp), List.append_nil]
  · rw [List.filter_append, List.filter_cons_of_neg (by simp), List.filter_eq_self.2 hbefore,
      List.filter_eq_self.2 hafter]

theorem span_of_not_mem {cs : List (Node β)} {i : NodeId} (h : ∀ c ∈ cs, c.id ≠ i) :
    cs.span (·.id ≠ i) = (cs, []) := by
  have hall : ∀ c ∈ cs, decide (c.id ≠ i) = true := fun c hc => decide_eq_true (h c hc)
  rw [List.span_eq_takeWhile_dropWhile, List.takeWhile_eq_self_iff.2 hall,
    List.dropWhile_eq_nil_iff.2 hall]

/-- A direct child can be taken out, and the other children keep their order. -/
theorem removeChild?_of_mem {p : Node β} (hp : (p.children.map id).Nodup) {c : Node β}
    (hc : c ∈ p.children) :
    p.removeChild? c.id =
      some (c.setParent none, p.withChildren (p.children.filter (·.id ≠ c.id))) := by
  cases p with
  | leaf info kind b => exact absurd hc List.not_mem_nil
  | inner info control cs =>
    have hnodup : (cs.map id).Nodup := hp
    obtain ⟨before, after, -, hspan, hfilter⟩ := span_of_mem hnodup hc
    rw [removeChild?, hspan, withChildren, children, hfilter]

theorem removeChild?_of_not_mem {p : Node β} {i : NodeId} (h : ∀ c ∈ p.children, c.id ≠ i) :
    p.removeChild? i = none := by
  cases p with
  | leaf info kind b => rfl
  | inner info control cs => rw [removeChild?, span_of_not_mem (show ∀ c ∈ cs, c.id ≠ i from h)]

/-! ### One node exchanged -/

/-- The second trees are the first ones with the node `p`, and everything below it, exchanged for
    `p'`. -/
inductive Exchanged (p p' : Node β) : List (Node β) → List (Node β) → Prop
  | here (before after : List (Node β)) :
    Exchanged p p' (before ++ p :: after) (before ++ p' :: after)
  | inside {info : NodeInfo} {control : Control} {cs ds : List (Node β)}
      (before after : List (Node β)) : Exchanged p p' cs ds →
    Exchanged p p' (before ++ .inner info control cs :: after)
      (before ++ .inner info control ds :: after)

theorem Exchanged.between {p p' : Node β} {cs ds : List (Node β)} (h : Exchanged p p' cs ds)
    (xs ys : List (Node β)) : Exchanged p p' (xs ++ (cs ++ ys)) (xs ++ (ds ++ ys)) := by
  cases h with
  | here before after =>
    have hhere : Exchanged p p' (xs ++ before ++ p :: (after ++ ys))
        (xs ++ before ++ p' :: (after ++ ys)) := .here _ _
    simpa only [List.append_assoc, List.cons_append] using hhere
  | inside before after h =>
    simpa only [List.append_assoc, List.cons_append] using
      Exchanged.inside (xs ++ before) (after ++ ys) h

theorem modifyAll_eq_map (id : NodeId) (f : Node β → Node β) (cs : List (Node β)) :
    modifyAll id f cs = cs.map (modify id f) := by
  induction cs with
  | nil => rw [modifyAll]; rfl
  | cons c cs ih => rw [modifyAll, ih, List.map_cons]

theorem modifyAll_append (id : NodeId) (f : Node β → Node β) (cs ds : List (Node β)) :
    modifyAll id f (cs ++ ds) = modifyAll id f cs ++ modifyAll id f ds := by
  simp only [modifyAll_eq_map, List.map_append]

theorem modify_self (f : Node β → Node β) (n : Node β) : n.modify n.id f = f n := by
  cases n with
  | leaf info kind b => rw [modify]; exact if_pos rfl
  | inner info control cs => rw [modify]; exact if_pos rfl

/-- A node that is exchanged for another one of its identity keeps the identity. -/
theorem id_modify {i : NodeId} {p : Node β} (hp : p.id = i) (n : Node β) :
    (n.modify i fun _ => p).id = n.id := by
  cases n <;> rw [modify] <;> split <;> simp_all [id, info]

/-- Without a node of that identity nothing is changed. -/
theorem modify_of_not_mem {i : NodeId} (f : Node β → Node β) {n : Node β}
    (h : i ∉ n.preorder.map id) : n.modify i f = n := by
  induction n with
  | leaf info kind b =>
    have hne : ¬ info.id = i := by simpa [preorder, id, Node.info, eq_comm] using h
    rw [modify, if_neg hne]
  | inner info control cs ih =>
    rw [preorder_eq, List.map_cons, List.mem_cons, not_or] at h
    have hne : ¬ info.id = i := fun heq => h.1 heq.symm
    have hchildren : cs.map (modify i f) = cs := by
      refine (List.map_congr_left fun c hc => ih c hc fun hmem => h.2 ?_).trans (List.map_id cs)
      exact ((preorder_sublist_of_mem hc).map id).subset hmem
    rw [modify, if_neg hne, modifyAll_eq_map, hchildren]

theorem modifyAll_of_not_mem {i : NodeId} (f : Node β → Node β) {cs : List (Node β)}
    (h : i ∉ (preorderAll cs).map id) : modifyAll i f cs = cs := by
  rw [modifyAll_eq_map]
  refine (List.map_congr_left fun c hc => modify_of_not_mem f fun hmem => h ?_).trans (List.map_id cs)
  exact ((preorder_sublist_of_mem hc).map id).subset hmem

/-- From the tree that holds the node to all of the trees. -/
theorem exchanged_modifyAll_of {f : Node β → Node β} {p : Node β} {cs : List (Node β)}
    (htree : ∀ c ∈ cs, (c.preorder.map id).Nodup → p ∈ c.preorder →
      Exchanged p (f p) [c] [c.modify p.id f])
    (hcs : ((preorderAll cs).map id).Nodup) (hp : p ∈ preorderAll cs) :
    Exchanged p (f p) cs (modifyAll p.id f cs) := by
  obtain ⟨c, hc, hp⟩ := mem_preorderAll.1 hp
  have hpid : p.id ∈ c.preorder.map id := List.mem_map_of_mem hp
  have hnodup : (c.preorder.map id).Nodup := hcs.sublist ((preorder_sublist_of_mem hc).map id)
  have hexchanged := htree c hc hnodup hp
  obtain ⟨before, after, rfl⟩ := List.append_of_mem hc
  rw [preorderAll_append, preorderAll_cons, List.map_append, List.map_append] at hcs
  obtain ⟨-, hrest, hdisjoint⟩ := List.nodup_append'.1 hcs
  obtain ⟨-, -, hdisjoint'⟩ := List.nodup_append'.1 hrest
  -- the identity stands in one of the trees only
  have hbefore := modifyAll_of_not_mem f fun hmem =>
    hdisjoint hmem (List.mem_append_left _ hpid)
  have hafter := modifyAll_of_not_mem f fun hmem => hdisjoint' hpid hmem
  rw [modifyAll_eq_map] at hbefore hafter
  rw [modifyAll_eq_map, List.map_append, List.map_cons, hbefore, hafter]
  exact hexchanged.between before after

/-- Changing the node with an identity exchanges that node. -/
theorem exchanged_modifyAll (f : Node β → Node β) {p : Node β} {cs : List (Node β)}
    (hcs : ((preorderAll cs).map id).Nodup) (hp : p ∈ preorderAll cs) :
    Exchanged p (f p) cs (modifyAll p.id f cs) := by
  refine exchanged_modifyAll_of (fun c hc => ?_) hcs hp
  clear hc hcs hp cs
  induction c with
  | leaf info kind b =>
    intro _ hp
    obtain rfl := List.mem_singleton.1 (by rwa [preorder] at hp)
    rw [modify_self]
    exact .here [] []
  | inner info control cs ih =>
    intro hnodup hp
    rw [preorder_eq, List.map_cons, List.nodup_cons] at hnodup
    rcases List.mem_cons.1 (preorder_eq _ ▸ hp) with rfl | hp
    · rw [modify_self]
      exact .here [] []
    · have hne : ¬ info.id = p.id := by
        intro heq
        have hroot : id (.inner info control cs) = p.id := heq
        rw [hroot] at hnodup
        exact hnodup.1 (List.mem_map_of_mem hp)
      rw [modify, if_neg hne]
      exact .inside [] [] (exchanged_modifyAll_of ih hnodup.2 hp)

namespace Exchanged

variable {p p' : Node β} {cs ds : List (Node β)}

/-- If the new node has the identity and the parent of the old one, the roots are what they were. -/
theorem stubs (h : Exchanged p p' cs ds) (hstub : p'.stub = p.stub) :
    ds.map stub = cs.map stub := by
  cases h with
  | here before after => simp only [List.map_append, List.map_cons, hstub]
  | inside before after h => simp only [List.map_append, List.map_cons]; rfl

/-- A node that is exchanged for itself leaves the trees as they are. -/
theorem refl (h : Exchanged p p cs ds) : ds = cs := by
  induction h with
  | here before after => rfl
  | inside before after h ih => rw [ih]

/-- The links of the one tree were exchanged for those of the other, and no other link changed. -/
theorem links (h : Exchanged p p' cs ds) (hstub : p'.stub = p.stub) :
    ∃ rest, (linksAll cs).Perm (p.links ++ rest) ∧ (linksAll ds).Perm (p'.links ++ rest) := by
  have between : ∀ (before after : List (Node β)) (c : Node β),
      (linksAll (before ++ c :: after)).Perm (c.links ++ (linksAll before ++ linksAll after)) := by
    intro before after c
    rw [linksAll_append, linksAll_cons]
    exact List.perm_append_comm_assoc _ _ _
  induction h with
  | here before after => exact ⟨_, between before after p, between before after p'⟩
  | @inside info control cs ds before after h ih =>
    obtain ⟨rest, hcs, hds⟩ := ih
    have hlink : link (.inner info control ds) = link (.inner info control cs) :=
      congrArg (Link.mk info.id control.capacity) (h.stubs hstub)
    -- the root of the tree around stands before the exchanged tree
    have around : ∀ {es : List (Node β)} {q : Node β}, (linksAll es).Perm (q.links ++ rest) →
        (linksAll (before ++ .inner info control es :: after)).Perm
          (q.links ++ (link (.inner info control es) :: rest ++
            (linksAll before ++ linksAll after))) := by
      intro es q hes
      have hroot : (Node.links (.inner info control es)).Perm
          (q.links ++ link (.inner info control es) :: rest) := by
        rw [links_eq]
        exact (hes.cons _).trans List.perm_middle.symm
      refine ((between before after _).trans (hroot.append_right _)).trans ?_
      rw [List.append_assoc]
    exact ⟨_, around hcs, hlink ▸ around hds⟩

/-- A node with other children has another link, and the links below it are those of the other
    children. -/
theorem links_withChildren {ds' : List (Node β)} (h : Exchanged p (p.withChildren ds') cs ds)
    (hds' : (p.withChildren ds').children = ds') :
    ∃ rest, (linksAll cs).Perm (p.link :: (linksAll p.children ++ rest)) ∧
      (linksAll ds).Perm (⟨p.id, p.capacity, ds'.map stub⟩ :: (linksAll ds' ++ rest)) := by
  obtain ⟨rest, hcs, hds⟩ := h.links (stub_withChildren ds' p)
  have hlink : (p.withChildren ds').link = ⟨p.id, p.capacity, ds'.map stub⟩ := by
    rw [link, id_withChildren, capacity_withChildren, hds']
  rw [links_eq] at hcs
  rw [links_eq, hds', hlink] at hds
  exact ⟨rest, hcs, hds⟩

/-- The new node, and everything below it, is in the trees. -/
theorem subset (h : Exchanged p p' cs ds) : p'.preorder ⊆ preorderAll ds := by
  induction h with
  | here before after => exact (preorder_sublist_of_mem (by simp)).subset
  | @inside info control cs ds before after _ ih =>
    refine fun m hm => (preorder_sublist_of_mem (c := .inner info control ds) (by simp)).subset ?_
    rw [preorder_eq]
    exact List.mem_cons_of_mem _ (ih hm)

end Exchanged

end BehaviorTree.Node
