import BehaviorTree.Proofs.Control.Round
import BehaviorTree.Proofs.Control.Settings
import Mathlib.Data.List.Forall2

namespace BehaviorTree

/-!
# What a control does to its children

A control acts on its children only by ticks, resets and cancellations.  `Machine.Reaches` says that
a child came from another by any number of these, with any moments and worlds.

* `Control.tick_reaches` — a tick keeps the number and the order of the children, and each was reached
  from the one that stood in its place;
* `Control.settings_tick` — a tick changes no setting.
-/

namespace Machine

variable {γ η : Type}

/-- `d` comes from `c` by ticks, resets and cancellations. -/
inductive Reaches (m : Machine γ η) (c : γ) : γ → Prop
  | refl : Reaches m c c
  | tick {d : γ} (now : Moment) (w : World η) : Reaches m c d → Reaches m c (m.tick now d w).next
  | reset {d : γ} (h : η) : Reaches m c d → Reaches m c (m.reset d h).1
  | cancel {d : γ} (h : η) : Reaches m c d → Reaches m c (m.cancel d h).1

variable {m : Machine γ η}

theorem Reaches.trans {c d e : γ} (h : m.Reaches c d) (h' : m.Reaches d e) : m.Reaches c e := by
  induction h' with
  | refl => exact h
  | tick now w _ ih => exact ih.tick now w
  | reset x _ ih => exact ih.reset x
  | cancel x _ ih => exact ih.cancel x

/-- What no tick, reset or cancellation of a child changes stays as it is. -/
theorem Reaches.preserves {α : Type} {view : γ → α}
    (htick : ∀ now c w, view (m.tick now c w).next = view c)
    (hreset : ∀ c h, view (m.reset c h).1 = view c)
    (hcancel : ∀ c h, view (m.cancel c h).1 = view c) {c d : γ} (h : m.Reaches c d) :
    view d = view c := by
  induction h with
  | refl => rfl
  | tick now w _ ih => rw [htick, ih]
  | reset x _ ih => rw [hreset, ih]
  | cancel x _ ih => rw [hcancel, ih]

/-- Children that stand where those stood that they were reached from. -/
abbrev ReachesAll (m : Machine γ η) : List γ → List γ → Prop := List.Forall₂ m.Reaches

theorem reachesAll_refl (cs : List γ) : m.ReachesAll cs cs :=
  List.forall₂_same.2 fun _ _ => .refl

theorem ReachesAll.trans {cs ds es : List γ} (h : m.ReachesAll cs ds) (h' : m.ReachesAll ds es) :
    m.ReachesAll cs es := by
  induction h generalizing es with
  | nil => exact h'
  | cons hcd _ ih =>
    cases h' with
    | cons hde hrest => exact .cons (hcd.trans hde) (ih hrest)

/-- Some child in the middle was reached from the one that stood in its place. -/
theorem ReachesAll.replace {before after : List γ} {c d : γ} (h : m.Reaches c d) :
    m.ReachesAll (before ++ c :: after) (before ++ d :: after) :=
  List.rel_append (reachesAll_refl before) (.cons h (reachesAll_refl after))

theorem Quiet.reaches {cs ds : List γ} {w v : World η} (h : m.Quiet cs w ds v) :
    m.ReachesAll cs ds := by
  induction h with
  | refl => exact reachesAll_refl cs
  | report name _ ih => exact ih
  | reset _ ih => exact ih.trans (.replace (.reset _ .refl))
  | cancel _ ih => exact ih.trans (.replace (.cancel _ .refl))

theorem Pass.reaches {now : Moment} {cs ds : List γ} {w v : World η} (h : m.Pass now cs w ds v) :
    m.ReachesAll cs ds := by
  induction h with
  | nil => exact .nil
  | skip _ ih => exact .cons .refl ih
  | tick _ ih => exact .cons (.tick now _ .refl) ih

theorem Round.reaches {now : Moment} {cs ds : List γ} {w v : World η}
    (h : m.Round now cs w ds v) : m.ReachesAll cs ds := by
  obtain ⟨cs₁, w₁, cs₂, w₂, hbefore, hpass, hafter⟩ := h
  exact (hbefore.reaches.trans hpass.reaches).trans hafter.reaches

end Machine

variable {γ η : Type} {m : Machine γ η}

/-- After a tick each child was reached from the one that stood in its place. -/
theorem Control.tick_reaches (name : String) (now : Moment) (control : Control) (cs : List γ)
    (w : World η) : m.ReachesAll cs (control.tick m name now cs w).next.2 :=
  (control.tick_round name now cs w).reaches

@[simp]
theorem Control.settings_tick (name : String) (now : Moment) (control : Control) (cs : List γ)
    (w : World η) : (control.tick m name now cs w).next.1.settings = control.settings := by
  cases control <;> rfl

end BehaviorTree
