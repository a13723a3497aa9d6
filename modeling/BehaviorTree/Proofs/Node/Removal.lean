import BehaviorTree.Proofs.Control.Ordered
import BehaviorTree.Proofs.Node.Links

namespace BehaviorTree

/-!
# Children taken out between two ticks

A sequence and a selector remember the place of the child that runs, not the child itself.  When
children before it are taken out, the place is that of a later child, or of none: the running child is
not resumed, and so many children after it are passed over as were taken out before it.

* `Node.executed` — the children that a node executes on a tick, by their identities;
* `Node.executed_walking` — a sequence and a selector execute children from the cursor on;
* `Node.removeChildren_eq` — taking out several children leaves the others in their order;
* `Node.removal_shifts_resumption` — what is executed after children were taken out;
* `Node.removal_loses_running` — a sequence whose first child is taken out while the second one runs.
-/

/-- The elements at consecutive places, where there are any. -/
theorem filterMap_range'_getElem? {α : Type} (l : List α) (first count : Nat) :
    (List.range' first count).filterMap (l[·]?) = (l.drop first).take count := by
  induction count generalizing first with
  | zero => rfl
  | succ count ih =>
    rw [List.range'_succ, List.filterMap_cons, ih]
    rcases Nat.lt_or_ge first l.length with hlt | hge
    · rw [List.getElem?_eq_getElem hlt, List.drop_eq_getElem_cons hlt, List.take_succ_cons]
    · rw [List.getElem?_eq_none hge, List.drop_eq_nil_of_le hge, List.take_nil,
        List.drop_eq_nil_of_le (Nat.le_succ_of_le hge), List.take_nil]

namespace Node

variable {β η : Type}

/-! ### Taking out several children -/

/-- The node without its children of these identities.  An identity that no child has is passed over. -/
def removeChildren (ids : List NodeId) (n : Node β) : Node β :=
  ids.foldl (fun n id => ((n.removeChild? id).map Prod.snd).getD n) n

theorem withChildren_children (n : Node β) : n.withChildren n.children = n := by
  cases n <;> rfl

theorem removeChild_eq {n : Node β} (h : (n.children.map id).Nodup) (i : NodeId) :
    ((n.removeChild? i).map Prod.snd).getD n = n.withChildren (n.children.filter (·.id ≠ i)) := by
  by_cases hchild : ∃ c ∈ n.children, c.id = i
  · obtain ⟨c, hc, rfl⟩ := hchild
    rw [removeChild?_of_mem h hc]
    rfl
  · have hall : ∀ c ∈ n.children, c.id ≠ i := fun c hc hid => hchild ⟨c, hc, hid⟩
    have hkept : n.children.filter (·.id ≠ i) = n.children :=
      List.filter_eq_self.2 fun c hc => decide_eq_true (hall c hc)
    rw [removeChild?_of_not_mem hall, hkept, withChildren_children]
    rfl

/-- What is left are the children of other identities, in their order. -/
theorem removeChildren_eq {info : NodeInfo} {control : Control} {cs : List (Node β)}
    (h : (cs.map id).Nodup) (ids : List NodeId) :
    removeChildren ids (inner info control cs) =
      inner info control (cs.filter (·.id ∉ ids)) := by
  induction ids generalizing cs with
  | nil =>
    have hkept : cs.filter (·.id ∉ ([] : List NodeId)) = cs :=
      List.filter_eq_self.2 fun c _ => decide_eq_true List.not_mem_nil
    rw [hkept]
    rfl
  | cons i ids ih =>
    have hrest : ((cs.filter (·.id ≠ i)).map id).Nodup :=
      h.sublist (List.filter_sublist.map id)
    have hfirst := removeChild_eq (n := inner info control cs) h i
    rw [removeChildren, List.foldl_cons, hfirst]
    show removeChildren ids (inner info control (cs.filter (·.id ≠ i))) = _
    rw [ih hrest, List.filter_filter]
    congr 1
    apply List.filter_congr
    intro c _
    rw [Bool.eq_iff_iff]
    simp [and_comm]

variable [Behavior β η]

/-! ### The children that a tick executes -/

/-- The identities of the children that a node executes on a tick, in their order. -/
def executed (now : Moment) (w : World η) : Node β → List NodeId
  | .leaf .. => []
  | .inner info control cs =>
    (control.beat machine info.name cs w (.execute now)).executions.filterMap fun e =>
      (cs.map id)[e.1]?

/-- Nothing that is done to a node changes its identity. -/
theorem id_of_reaches {n m : Node β} (h : (machine : Machine (Node β) η).Reaches n m) :
    m.id = n.id := by
  apply h.preserves
  · intro now n w
    exact congrArg Prod.fst (root_of_view_eq (steady_placement.view_execute now n w))
  · intro n host
    exact congrArg Prod.fst (root_of_view_eq (steady_placement.view_reset n host))
  · intro n host
    exact congrArg Prod.fst (root_of_view_eq (steady_placement.view_cancel n host))

section
variable {control : Nat → Control} {goOn : Status}

/-- A node that walks along its children executes them from its cursor on, as many as it comes to.  If
    it runs then, it waits for the last of them. -/
theorem executed_walking (hw : Control.Walks control goOn) (info : NodeInfo) (cursor : Nat)
    (cs : List (Node β)) (now : Moment) (w : World η) :
    let n := inner info (control cursor) cs
    ∃ more, n.executed now w = ((cs.map id).drop cursor).take (more + 1) ∧
      ((n.execute now w).status = .running → cursor + more < cs.length ∧
        ∃ ds, (n.execute now w).next = inner info (control (cursor + more)) ds ∧
          ds.map id = cs.map id) ∧
      (cs.length ≤ cursor → (n.execute now w).status = goOn) := by
  intro n
  let b := (control cursor).beat machine info.name cs w (.execute now)
  let o := (control cursor).tick machine info.name now cs w
  have hstatus : b.answer = some (n.execute now w).status := by
    rw [execute_inner]
    rfl
  have hnext : (n.execute now w).next = inner info b.control o.next.2 := by
    rw [execute_inner]
    rfl
  have hids : o.next.2.map id = cs.map id :=
    ((control cursor).tick_reaches info.name now cs w).map_eq id_of_reaches
  obtain ⟨hbehind, hwithin⟩ := Ordered.exists_executions hw machine info.name cursor cs w now
  rcases Nat.lt_or_ge cursor cs.length with hlt | hge
  · obtain ⟨more, answer, hpath, hmore, hcursor⟩ := hwithin hlt
    refine ⟨more, ?_, fun hrun => ⟨hmore, o.next.2, ?_, hids⟩, fun hle => ?_⟩
    · have hplaces : (Ordered.path goOn cursor more answer).map Prod.fst =
          List.range' cursor (more + 1) := by
        rw [Ordered.path, List.range'_1_concat, List.map_append, List.map_map]
        simp [Function.comp_def]
      rw [← filterMap_range'_getElem?, ← hplaces, List.filterMap_map, ← hpath]
      rfl
    · rw [hnext, hcursor (by rw [hstatus, hrun])]
    · exact absurd hlt (Nat.not_lt.2 hle)
  · obtain ⟨hnone, hanswer⟩ := hbehind hge
    rw [hstatus] at hanswer
    have hgoOn := Option.some.inj hanswer
    refine ⟨0, ?_, fun hrun => absurd (hgoOn.symm.trans hrun) hw.goOn_ne, fun _ => hgoOn⟩
    rw [List.drop_eq_nil_of_le (by rwa [List.length_map]), List.take_nil, executed, hnone]
    rfl

/-! ### The tick after children were taken out -/

/-- What a tick executes of a node whose cursor is at the place behind the children `before`, when only
    `before.filter keep` are left of them. -/
theorem executed_removed (hw : Control.Walks control goOn) (info : NodeInfo) (keep : Node β → Bool)
    {before after : List (Node β)} {c : Node β}
    (hids : ((before ++ c :: after).map id).Nodup) (now : Moment) (w : World η) :
    let n := inner info (control before.length) (before.filter keep ++ c :: after)
    let missing := before.countP fun d => !keep d
    (∃ more, n.executed now w = (((c :: after).map id).drop missing).take (more + 1)) ∧
      ((n.executed now w).head? = some c.id ↔ ∀ d ∈ before, keep d = true) ∧
      (∀ d ∈ before, d.id ∉ n.executed now w) ∧
      (n.executed now w = [] → (n.execute now w).status = goOn) := by
  intro n missing
  have hlength : before.length = (before.filter keep).length + missing := by
    rw [← List.countP_eq_length_filter]
    simpa using List.length_eq_countP_add_countP keep
  have hdrop : ((before.filter keep ++ c :: after).map id).drop before.length =
      ((c :: after).map id).drop missing := by
    rw [List.map_append, hlength, List.drop_append, List.length_map]
    simp
  obtain ⟨more, hexecuted, -, hended⟩ :=
    executed_walking hw info before.length (before.filter keep ++ c :: after) now w
  rw [hdrop] at hexecuted
  rw [List.map_append, List.nodup_append'] at hids
  obtain ⟨-, hbehind, hapart⟩ := hids
  refine ⟨⟨more, hexecuted⟩, ?_, ?_, ?_⟩
  · have hmissing : missing = 0 ↔ ∀ d ∈ before, keep d = true := by
      simp [missing, List.countP_eq_zero]
    rw [← hmissing, hexecuted, List.head?_take, if_neg (Nat.succ_ne_zero more), List.head?_drop]
    constructor
    · -- the running child is at the first of these places only
      intro hfirst
      exact ((List.getElem?_inj (Nat.succ_pos _) hbehind).1 hfirst.symm).symm
    · intro hzero
      rw [hzero]
      rfl
  · intro d hd hmem
    rw [hexecuted] at hmem
    exact hapart (List.mem_map_of_mem hd) (List.mem_of_mem_drop (List.mem_of_mem_take hmem))
  · intro hnone
    apply hended
    rw [hexecuted, List.take_eq_nil_iff, ← hdrop, List.drop_eq_nil_iff, List.length_map] at hnone
    exact hnone.resolve_left (Nat.succ_ne_zero more)

end

/-- **A removal shifts the resumption.**  A sequence or a selector whose tick answered that it runs waits
    for a child `c`, the last one that this tick executed, with the children `before` behind it.  When
    children other than `c` are taken out, the next tick begins so many places after `c` as children
    were taken out of `before`, at `c` itself exactly when there was none, and ends the run when there
    is no child at that place.  It executes none of the children behind `c` again. -/
theorem removal_shifts_resumption {control : Nat → Control} {goOn : Status}
    (hkind : control = .sequence ∧ goOn = .success ∨ control = .selector ∧ goOn = .failure)
    (info : NodeInfo) (cursor : Nat) {cs : List (Node β)} (hids : (cs.map id).Nodup) (now : Moment)
    (w : World η) (hrun : (execute now (inner info (control cursor) cs) w).status = .running) :
    let n := inner info (control cursor) cs
    ∃ before c after, (n.executed now w).getLast? = some c.id ∧
      (n.execute now w).next = inner info (control before.length) (before ++ c :: after) ∧
      (before ++ c :: after).map id = cs.map id ∧
      ∀ ids, c.id ∉ ids →
        let m := (n.execute now w).next.removeChildren ids
        let kept := after.filter (·.id ∉ ids)
        m = inner info (control before.length) (before.filter (·.id ∉ ids) ++ c :: kept) ∧
          ∀ (now' : Moment) (w' : World η),
            (∃ more, m.executed now' w' =
              (((c :: kept).map id).drop (before.countP (·.id ∈ ids))).take (more + 1)) ∧
            ((m.executed now' w').head? = some c.id ↔ ∀ d ∈ before, d.id ∉ ids) ∧
            (∀ d ∈ before, d.id ∉ m.executed now' w') ∧
            (m.executed now' w' = [] → (m.execute now' w').status = goOn) := by
  intro n
  have hw : Control.Walks control goOn := by
    obtain ⟨rfl, rfl⟩ | ⟨rfl, rfl⟩ := hkind
    · exact Control.walks_sequence
    · exact Control.walks_selector
  obtain ⟨more, hexecuted, hwaits, -⟩ := executed_walking hw info cursor cs now w
  obtain ⟨hlt, ds, hnext, hds⟩ := hwaits hrun
  have hplace : cursor + more < ds.length := by
    rwa [← List.length_map id, hds, List.length_map]
  obtain ⟨before, c, after, rfl, hlength⟩ :
      ∃ before c after, ds = before ++ c :: after ∧ before.length = cursor + more := by
    refine ⟨ds.take (cursor + more), ds[cursor + more], ds.drop (cursor + more + 1), ?_, ?_⟩
    · rw [← List.drop_eq_getElem_cons hplace, List.take_append_drop]
    · exact List.length_take_of_le (Nat.le_of_lt hplace)
  rw [← hlength] at hnext
  have hnodup : ((before ++ c :: after).map id).Nodup := hds ▸ hids
  refine ⟨before, c, after, ?_, hnext, hds, ?_⟩
  · have hlast : ((before ++ c :: after).map id)[cursor + more]? = some c.id := by
      rw [← hlength]
      simp
    rw [hexecuted, ← hds, List.take_add_one, List.getElem?_drop, hlast]
    exact List.getLast?_concat
  · intro ids hc m kept
    have hremoved : m = inner info (control before.length)
        (before.filter (·.id ∉ ids) ++ c :: kept) := by
      have hkept : (before ++ c :: after).filter (·.id ∉ ids) =
          before.filter (·.id ∉ ids) ++ c :: kept := by
        rw [List.filter_append, List.filter_cons, if_pos (decide_eq_true hc)]
      rw [← hkept, ← removeChildren_eq hnodup ids, ← hnext]
    refine ⟨hremoved, fun now' w' => ?_⟩
    have hsublist : (before ++ c :: kept).Sublist (before ++ c :: after) :=
      (List.filter_sublist.cons_cons c).append_left before
    have hresult := executed_removed hw info (·.id ∉ ids)
      (hnodup.sublist (hsublist.map id)) now' w'
    rw [hremoved]
    simpa using hresult

/-- Something that is done at once, a pause, and something that fails. -/
def errand : Node Builtin :=
  .inner { id := 1, name := "Sequence" } (.sequence 0)
    [.leaf { id := 2, name := "Action", parent := some 1 } .action (.constant .success),
      .leaf { id := 3, name := "Action", parent := some 1 } .action (.wait 1.0 none),
      .leaf { id := 4, name := "Action", parent := some 1 } .action (.constant .failure)]

/-- During the pause the third child can be taken out, and the pause goes on; without the first child
    it does not. -/
theorem errand_resumes :
    let n := (errand.execute ⟨0, 0.0⟩ (World.start ())).next
    (errand.children.map id).Nodup ∧ (errand.execute ⟨0, 0.0⟩ (World.start ())).status = .running ∧
      ((n.removeChildren [4]).executed ⟨1, 0.5⟩ (World.start ())).head? = some 3 ∧
      ((n.removeChildren [2]).executed ⟨1, 0.5⟩ (World.start ())).head? ≠ some 3 := by
  intro n
  have hids : (errand.children.map id).Nodup := by decide
  have hrun : (errand.execute ⟨0, 0.0⟩ (World.start ())).status = .running := rfl
  refine ⟨hids, hrun, ?_⟩
  obtain ⟨before, c, after, hlast, hnext, hsplit, hremoved⟩ :=
    removal_shifts_resumption (.inl ⟨rfl, rfl⟩) { id := 1, name := "Sequence" } 0 hids ⟨0, 0.0⟩
      (World.start ()) hrun
  have hc : c.id = 3 := (Option.some.inj hlast).symm
  have hcursor : Control.sequence 1 = .sequence before.length := (Node.inner.inj hnext).2.1
  obtain ⟨d, rfl⟩ := List.length_eq_one_iff.1 (Control.sequence.inj hcursor).symm
  have hd : d.id = 2 := (List.cons.inj hsplit).1
  obtain ⟨-, hother⟩ := hremoved [4] (by rw [hc]; decide)
  obtain ⟨-, hdone⟩ := hremoved [2] (by rw [hc]; decide)
  obtain ⟨-, hresumed, -⟩ := hother ⟨1, 0.5⟩ (World.start ())
  obtain ⟨-, hlost, -⟩ := hdone ⟨1, 0.5⟩ (World.start ())
  rw [List.forall_mem_singleton, hd, hc] at hresumed hlost
  exact ⟨hresumed.2 (by decide), fun hfirst => absurd (hlost.1 hfirst) (by decide)⟩

/-- **A running child can be lost.**  A sequence waits for its second child.  When the first one, which
    is done, is taken out, the next tick executes the third one, and the pause is not resumed. -/
theorem removal_loses_running :
    let n := (errand.execute ⟨0, 0.0⟩ (World.start ())).next
    (errand.execute ⟨0, 0.0⟩ (World.start ())).status = .running ∧
      errand.executed ⟨0, 0.0⟩ (World.start ()) = [2, 3] ∧
      (n.removeChildren [2]).children.map id = [3, 4] ∧
      (n.removeChildren [2]).executed ⟨1, 0.5⟩ (World.start ()) = [4] :=
  ⟨rfl, rfl, rfl, rfl⟩

end Node

end BehaviorTree
