import BehaviorTree.Proofs.Control.Round

namespace BehaviorTree

/-!
# The order in which a control ticks its children

A host that sees what happens sees, during a tick of a child, some of the things that are listed for this
child, each at most once and in the order of the list.  Then during a tick of a control over such children
it sees some of the things that are listed for the children, from the first child to the last: no control
comes back to a child, and what it resets and cancels on its way is not seen.

* `Machine.Orderly` — every child keeps to its list;
* `Control.tick_orderly` — then every control keeps to the lists of its children.
-/

namespace Machine

variable {α γ η : Type}

/-- During a tick the host sees, beyond what it saw before, some of what is listed for the child, in this
    order.  During a reset and a cancellation it sees nothing, and the list stays. -/
structure Orderly (m : Machine γ η) (seen : η → List α) (list : γ → List α) : Prop where
  tick : ∀ now c w, ∃ new, seen (m.tick now c w).world.host = seen w.host ++ new ∧
    new.Sublist (list c)
  reset : ∀ c h, seen (m.reset c h).2 = seen h ∧ list (m.reset c h).1 = list c
  cancel : ∀ c h, seen (m.cancel c h).2 = seen h ∧ list (m.cancel c h).1 = list c

variable {m : Machine γ η} {seen : η → List α} {list : γ → List α} {now : Moment}
  {cs ds : List γ} {w v : World η}

theorem Orderly.quiet (o : m.Orderly seen list) (h : m.Quiet cs w ds v) :
    seen v.host = seen w.host ∧ ds.flatMap list = cs.flatMap list := by
  induction h with
  | refl => exact ⟨rfl, rfl⟩
  | report name _ ih => rwa [World.host_emit]
  | @reset before after c v _ ih =>
    obtain ⟨hseen, hlist⟩ := o.reset c v.host
    exact ⟨hseen.trans ih.1, by simpa [hlist] using ih.2⟩
  | @cancel before after c v _ ih =>
    obtain ⟨hseen, hlist⟩ := o.cancel c v.host
    exact ⟨hseen.trans ih.1, by simpa [hlist] using ih.2⟩

theorem Orderly.pass (o : m.Orderly seen list) (h : m.Pass now cs w ds v) :
    ∃ new, seen v.host = seen w.host ++ new ∧ new.Sublist (cs.flatMap list) := by
  induction h with
  | nil => exact ⟨[], by simp, .slnil⟩
  | @skip c cs ds w v _ ih =>
    obtain ⟨new, hseen, hnew⟩ := ih
    exact ⟨new, hseen, hnew.trans (List.sublist_append_right (list c) _)⟩
  | @tick c cs ds w v _ ih =>
    obtain ⟨new, hseen, hnew⟩ := o.tick now c w
    obtain ⟨rest, hseen', hrest⟩ := ih
    exact ⟨new ++ rest, by rw [hseen', hseen, List.append_assoc], hnew.append hrest⟩

theorem Orderly.round (o : m.Orderly seen list) (h : m.Round now cs w ds v) :
    ∃ new, seen v.host = seen w.host ++ new ∧ new.Sublist (cs.flatMap list) := by
  obtain ⟨cs₁, w₁, cs₂, w₂, hbefore, hpass, hafter⟩ := h
  obtain ⟨new, hseen, hnew⟩ := o.pass hpass
  rw [(o.quiet hafter).1, hseen, (o.quiet hbefore).1]
  exact ⟨new, rfl, (o.quiet hbefore).2 ▸ hnew⟩

end Machine

variable {α γ η : Type} {m : Machine γ η} {seen : η → List α} {list : γ → List α}

/-- During a tick of a control the host sees some of what is listed for the children, in their order. -/
theorem Control.tick_orderly (o : m.Orderly seen list) (name : String) (now : Moment)
    (control : Control) (cs : List γ) (w : World η) :
    ∃ new, seen (control.tick m name now cs w).world.host = seen w.host ++ new ∧
      new.Sublist (cs.flatMap list) :=
  o.round (control.tick_round name now cs w)

end BehaviorTree
