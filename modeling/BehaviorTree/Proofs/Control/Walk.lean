import BehaviorTree.Control.Basic

namespace BehaviorTree

/-!
# Walks along lists of children

A sequence and a selector walk along their children.  A walk along two lists, one behind the other, is
one along the first list, and then, unless it stopped there, one along the second.

* `Ordered.walk_append_of_passed`, `Ordered.walk_append_of_stopped`, `Ordered.walk_behind` — the walk
  along two lists, from a place in the first or in the second;
* `Ordered.cursor_lt_of_stopped` — a walk that stopped did so at one of the children;
* `Ordered.cursor_le_walk`, `Ordered.drop_walk` — a walk goes forward, and leaves the children beyond the
  one where it ends as they were;
* `Control.Walks` — what a sequence and a selector have in common, with what each of them goes on
  after.
-/

variable {γ η : Type}

/-- The outcome of a walk, with children before those that were walked along. -/
def Outcome.behind (o : Outcome (Nat × List γ) η) (cs : List γ) : Outcome (Nat × List γ) η :=
  o.map fun r => (cs.length + r.1, cs ++ r.2)

/-- The outcome of a walk that stopped, with children after those that were walked along. -/
def Outcome.before (o : Outcome (Nat × List γ) η) (ds : List γ) : Outcome (Nat × List γ) η :=
  o.map fun r => (r.1, r.2 ++ ds)

namespace Ordered

variable {m : Machine γ η} {goOn : Status} {now : Moment}

theorem length_walk (cursor : Nat) (cs : List γ) (w : World η) :
    (walk m goOn now cursor cs w).next.2.length = cs.length := by
  induction cs generalizing cursor w with
  | nil => cases cursor <;> rfl
  | cons c cs ih =>
    cases cursor with
    | succ cursor => simp only [walk, List.length_cons, ih]
    | zero =>
      simp only [walk]
      split
      · simp only [List.length_cons, ih]
      · rfl

/-- A walk that did not pass the last child stopped at a child. -/
theorem cursor_lt_of_stopped {cursor : Nat} {cs : List γ} {w : World η}
    (h : (walk m goOn now cursor cs w).status ≠ goOn) :
    (walk m goOn now cursor cs w).next.1 < (walk m goOn now cursor cs w).next.2.length := by
  rw [length_walk]
  induction cs generalizing cursor w with
  | nil => cases cursor <;> exact absurd rfl h
  | cons c cs ih =>
    cases cursor with
    | succ cursor => exact Nat.succ_lt_succ (ih h)
    | zero =>
      simp only [walk] at h ⊢
      split
      · next hpass =>
        rw [if_pos hpass] at h
        exact Nat.succ_lt_succ (ih h)
      · exact Nat.succ_pos _

theorem cursor_le_walk (cursor : Nat) (cs : List γ) (w : World η) :
    cursor ≤ (walk m goOn now cursor cs w).next.1 := by
  induction cs generalizing cursor w with
  | nil => cases cursor <;> exact Nat.le_refl _
  | cons c cs ih =>
    cases cursor with
    | succ cursor => exact Nat.succ_le_succ (ih cursor w)
    | zero => exact Nat.zero_le _

/-- A walk does not touch the children beyond the one where it ends. -/
theorem drop_walk (cursor : Nat) (cs : List γ) (w : World η) :
    let r := (walk m goOn now cursor cs w).next
    r.2.drop (r.1 + 1) = cs.drop (r.1 + 1) := by
  induction cs generalizing cursor w with
  | nil => cases cursor <;> rfl
  | cons c cs ih =>
    cases cursor with
    | succ cursor => exact ih cursor w
    | zero =>
      simp only [walk]
      split
      · exact ih 0 _
      · rfl

/-- Behind the last child nothing is walked along. -/
theorem walk_of_length_le {cursor : Nat} {cs : List γ} (h : cs.length ≤ cursor) (w : World η) :
    walk m goOn now cursor cs w = ⟨goOn, (cursor, cs), w⟩ := by
  induction cs generalizing cursor with
  | nil => cases cursor <;> rfl
  | cons c cs ih =>
    obtain ⟨place, rfl⟩ := Nat.exists_eq_add_of_le' h
    rw [List.length_cons, ← Nat.add_assoc, walk, ih (Nat.le_add_left _ _)]

theorem walk_cons_of_passed {c : γ} {w : World η} (h : (m.tick now c w).status = goOn)
    (cs : List γ) :
    walk m goOn now 0 (c :: cs) w =
      (walk m goOn now 0 cs (m.tick now c w).world).behind [(m.tick now c w).next] := by
  simp only [walk, if_pos h, Outcome.behind, Outcome.map, List.length_singleton,
    List.singleton_append, Nat.add_comm 1]

theorem walk_cons_of_stopped {c : γ} {w : World η} (h : (m.tick now c w).status ≠ goOn)
    (cs : List γ) :
    walk m goOn now 0 (c :: cs) w =
      (m.tick now c w).map fun d => (0, d :: cs) := by
  simp only [walk, if_neg h, Outcome.map]

/-- A walk that begins behind some children does not look at them. -/
theorem walk_behind (cs ds : List γ) (place : Nat) (w : World η) :
    walk m goOn now (cs.length + place) (cs ++ ds) w =
      (walk m goOn now place ds w).behind cs := by
  induction cs with
  | nil => simp [Outcome.behind, Outcome.map]
  | cons c cs ih =>
    have hplace : (c :: cs).length + place = cs.length + place + 1 := by
      rw [List.length_cons]; omega
    rw [hplace, List.cons_append, walk, ih]
    simp only [Outcome.behind, Outcome.map, List.length_cons, List.cons_append]
    congr 2
    omega

/-- A walk that passed the children of one list goes on with those of the next. -/
theorem walk_append_of_passed {cursor : Nat} {cs : List γ} {w : World η} (h : cursor ≤ cs.length)
    (hpass : (walk m goOn now cursor cs w).status = goOn) (ds : List γ) :
    walk m goOn now cursor (cs ++ ds) w =
      (walk m goOn now 0 ds (walk m goOn now cursor cs w).world).behind
        (walk m goOn now cursor cs w).next.2 := by
  induction cs generalizing cursor w with
  | nil =>
    obtain rfl : cursor = 0 := Nat.le_zero.1 h
    simp [walk, Outcome.behind, Outcome.map]
  | cons c cs ih =>
    cases cursor with
    | succ cursor =>
      have hrest := ih (Nat.le_of_succ_le_succ h) hpass
      simp only [List.cons_append, walk, hrest, Outcome.behind, Outcome.map, List.length_cons]
      congr 2
      omega
    | zero =>
      simp only [List.cons_append, walk] at hpass ⊢
      split at hpass
      · next hc =>
        have hrest := ih (Nat.zero_le _) hpass
        simp only [if_pos hc, hrest, Outcome.behind, Outcome.map, List.length_cons,
          List.cons_append]
        congr 2
        omega
      · next hc => exact absurd hpass hc

/-- A walk that stopped at a child of one list does not look at those of the next. -/
theorem walk_append_of_stopped {cursor : Nat} {cs : List γ} {w : World η}
    (hstop : (walk m goOn now cursor cs w).status ≠ goOn) (ds : List γ) :
    walk m goOn now cursor (cs ++ ds) w = (walk m goOn now cursor cs w).before ds := by
  induction cs generalizing cursor w with
  | nil => cases cursor <;> exact absurd rfl hstop
  | cons c cs ih =>
    cases cursor with
    | succ cursor =>
      have hrest := ih hstop
      simp only [List.cons_append, walk, hrest, Outcome.before, Outcome.map]
    | zero =>
      simp only [List.cons_append, walk] at hstop ⊢
      split at hstop
      · next hc =>
        have hrest := ih hstop
        simp only [if_pos hc, hrest, Outcome.before, Outcome.map, List.cons_append]
      · next hc => simp only [if_neg hc, Outcome.before, Outcome.map, List.cons_append]

end Ordered

/-- A control that walks along its children from a cursor on. -/
structure Control.Walks (control : Nat → Control) (goOn : Status) : Prop where
  /-- It stops at a child that runs. -/
  goOn_ne : goOn ≠ .running
  tick : ∀ {γ η : Type} (m : Machine γ η) (name : String) (now : Moment) (cursor : Nat)
    (cs : List γ) (w : World η), (control cursor).tick m name now cs w =
      (Ordered.tick m goOn now cursor cs w).map fun r => (control r.1, r.2)
  restart : ∀ cursor, (control cursor).restart = control 0
  abandon : ∀ cursor, (control cursor).abandon = control cursor
  /-- It takes any number of children. -/
  capacity : ∀ cursor, (control cursor).capacity = none

theorem Control.walks_sequence : Walks .sequence .success where
  goOn_ne := nofun
  tick _ _ _ _ _ _ := rfl
  restart _ := rfl
  abandon _ := rfl
  capacity _ := rfl

theorem Control.walks_selector : Walks .selector .failure where
  goOn_ne := nofun
  tick _ _ _ _ _ _ := rfl
  restart _ := rfl
  abandon _ := rfl
  capacity _ := rfl

end BehaviorTree
