import BehaviorTree.Control.Basic

namespace BehaviorTree

/-!
# What a control can do in one tick

Everything that a control does to its children and to the world in one tick, said once for all
controls: it resets and cancels children and reports, then it goes along its children once and ticks
some of them, and then it resets, cancels and reports again.

* `Machine.Quiet` — resets, cancellations and reports, any number of them;
* `Machine.Pass` — one way along the children, from the first to the last, on which each child is
  ticked once or passed over;
* `Control.tick_round` — a tick of any control is a pass between two quiet parts.
-/

namespace Machine

variable {γ η : Type}

/-- From the children `cs` and the world `w` one comes to `ds` and `v` without a tick. -/
inductive Quiet (m : Machine γ η) (cs : List γ) (w : World η) : List γ → World η → Prop
  | refl : Quiet m cs w cs w
  | report {ds : List γ} {v : World η} (name : String) :
    Quiet m cs w ds v → Quiet m cs w ds (v.emit (childMissing name))
  | reset {before after : List γ} {c : γ} {v : World η} :
    Quiet m cs w (before ++ c :: after) v →
      Quiet m cs w (before ++ (m.reset c v.host).1 :: after)
        { v with host := (m.reset c v.host).2 }
  | cancel {before after : List γ} {c : γ} {v : World η} :
    Quiet m cs w (before ++ c :: after) v →
      Quiet m cs w (before ++ (m.cancel c v.host).1 :: after)
        { v with host := (m.cancel c v.host).2 }

/-- From the children `cs` and the world `w` one comes to `ds` and `v` by ticking some of the
    children, in their order and each of them once. -/
inductive Pass (m : Machine γ η) (now : Moment) : List γ → World η → List γ → World η → Prop
  | nil {w : World η} : Pass m now [] w [] w
  | skip {c : γ} {cs ds : List γ} {w v : World η} :
    Pass m now cs w ds v → Pass m now (c :: cs) w (c :: ds) v
  | tick {c : γ} {cs ds : List γ} {w v : World η} :
    Pass m now cs (m.tick now c w).world ds v →
      Pass m now (c :: cs) w ((m.tick now c w).next :: ds) v

/-- A pass between two quiet parts. -/
def Round (m : Machine γ η) (now : Moment) (cs : List γ) (w : World η) (ds : List γ)
    (v : World η) : Prop :=
  ∃ cs₁ w₁ cs₂ w₂, m.Quiet cs w cs₁ w₁ ∧ m.Pass now cs₁ w₁ cs₂ w₂ ∧ m.Quiet cs₂ w₂ ds v

variable {m : Machine γ η} {now : Moment} {cs ds es : List γ} {w v u : World η}

/-! ### Quiet parts -/

theorem Quiet.trans (h : m.Quiet cs w ds v) (h' : m.Quiet ds v es u) : m.Quiet cs w es u := by
  induction h' with
  | refl => exact h
  | report name _ ih => exact ih.report name
  | reset _ ih => exact ih.reset
  | cancel _ ih => exact ih.cancel

/-- A sweep is quiet if what it does to a child is. -/
theorem quiet_sweep {f : γ → η → γ × η}
    (hf : ∀ {before after c v}, m.Quiet cs w (before ++ c :: after) v →
      m.Quiet cs w (before ++ (f c v.host).1 :: after) { v with host := (f c v.host).2 })
    (before : List γ) (h : m.Quiet cs w (before ++ ds) v) :
    m.Quiet cs w (before ++ (v.atHost (sweep f ds)).1) (v.atHost (sweep f ds)).2 := by
  induction ds generalizing before v with
  | nil => exact h
  | cons d ds ih =>
    have hrest := ih (before ++ [(f d v.host).1]) (v := { v with host := (f d v.host).2 })
      (by simpa using hf h)
    rw [List.append_assoc] at hrest
    exact hrest

theorem quiet_resetAll (cs : List γ) (w : World η) :
    m.Quiet cs w (m.resetAll cs w).1 (m.resetAll cs w).2 :=
  quiet_sweep .reset [] .refl

theorem quiet_cancelAll (cs : List γ) (w : World η) :
    m.Quiet cs w (m.cancelAll cs w).1 (m.cancelAll cs w).2 :=
  quiet_sweep .cancel [] .refl

/-! ### Passes -/

theorem Pass.refl (cs : List γ) (w : World η) : m.Pass now cs w cs w := by
  induction cs with
  | nil => exact .nil
  | cons c cs ih => exact .skip ih

theorem pass_tickAll (cs : List γ) (w : World η) :
    m.Pass now cs w (m.tickAll now cs w).2.1 (m.tickAll now cs w).2.2 := by
  induction cs generalizing w with
  | nil => exact .nil
  | cons c cs ih => exact .tick (ih _)

/-- Only the first child is ticked. -/
theorem pass_first (c : γ) (cs : List γ) (w : World η) :
    m.Pass now (c :: cs) w ((m.tick now c w).next :: cs) (m.tick now c w).world :=
  .tick (.refl cs _)

/-! ### Rounds -/

theorem Quiet.round (h : m.Quiet cs w ds v) : m.Round now cs w ds v :=
  ⟨ds, v, ds, v, h, .refl ds v, .refl⟩

theorem Pass.round (h : m.Pass now cs w ds v) : m.Round now cs w ds v :=
  ⟨cs, w, ds, v, .refl, h, .refl⟩

theorem Round.quiet (h : m.Round now cs w ds v) (h' : m.Quiet ds v es u) :
    m.Round now cs w es u := by
  obtain ⟨cs₁, w₁, cs₂, w₂, hbefore, hpass, hafter⟩ := h
  exact ⟨cs₁, w₁, cs₂, w₂, hbefore, hpass, hafter.trans h'⟩

theorem Round.after_quiet (h : m.Quiet cs w ds v) (h' : m.Round now ds v es u) :
    m.Round now cs w es u := by
  obtain ⟨cs₁, w₁, cs₂, w₂, hbefore, hpass, hafter⟩ := h'
  exact ⟨cs₁, w₁, cs₂, w₂, h.trans hbefore, hpass, hafter⟩

end Machine

/-! ### Controls -/

open Machine (Quiet Pass Round)

variable {γ η : Type} {m : Machine γ η}

theorem Ordered.walk_pass (goOn : Status) (now : Moment) (cursor : Nat) (cs : List γ)
    (w : World η) :
    m.Pass now cs w (walk m goOn now cursor cs w).next.2 (walk m goOn now cursor cs w).world := by
  induction cs generalizing cursor w with
  | nil => cases cursor <;> exact .nil
  | cons c cs ih =>
    cases cursor with
    | succ cursor => exact .skip (ih cursor w)
    | zero =>
      simp only [walk]
      split
      · exact .tick (ih 0 _)
      · exact Machine.pass_first c cs w

theorem Ordered.tick_round (goOn : Status) (now : Moment) (cursor : Nat) (cs : List γ)
    (w : World η) :
    m.Round now cs w (tick m goOn now cursor cs w).next.2 (tick m goOn now cursor cs w).world := by
  have hwalk := (walk_pass (m := m) goOn now cursor cs w).round
  simp only [tick]
  split
  · exact hwalk
  · exact hwalk.quiet (Machine.quiet_resetAll _ _)

theorem Parallel.quiet_cancelRunning (before : List γ) (answers : List Status) {cs ds : List γ}
    {w v : World η} (h : m.Quiet ds v (before ++ cs) w) :
    m.Quiet ds v (before ++ (w.atHost (cancelRunning m answers cs)).1)
      (w.atHost (cancelRunning m answers cs)).2 := by
  induction cs generalizing before answers w with
  | nil =>
    match answers with
    | [] | .running :: _ | .success :: _ | .failure :: _ => exact h
  | cons c cs ih =>
    match answers with
    | [] => exact h
    | .running :: answers =>
      have hrest := ih (before ++ [(m.cancel c w.host).1]) answers
        (w := { w with host := (m.cancel c w.host).2 }) (by simpa using h.cancel)
      rw [List.append_assoc] at hrest
      exact hrest
    | .success :: answers | .failure :: answers =>
      have hrest := ih (before ++ [c]) answers (by simpa using h)
      rw [List.append_assoc] at hrest
      exact hrest

theorem Parallel.tick_round (now : Moment) (p : Parallel) (cs : List γ) (w : World η) :
    m.Round now cs w (tick m now p cs w).next (tick m now p cs w).world := by
  have hall : m.Round now cs w _ _ := (Machine.pass_tickAll cs w).round
  rw [tick]
  split
  · exact Quiet.refl.round
  generalize m.tickAll now cs w = r at hall ⊢
  obtain ⟨answers, ds, v⟩ := r
  have hend := hall.quiet
    ((quiet_cancelRunning [] answers .refl).trans (Machine.quiet_resetAll _ _))
  cases hdecide : p.decide answers <;> simp only [hdecide]
  · exact hall
  · exact hend
  · exact hend

theorem Inverter.tick_round (name : String) (now : Moment) (cs : List γ) (w : World η) :
    m.Round now cs w (tick m name now cs w).next (tick m name now cs w).world := by
  cases cs with
  | nil => exact (Quiet.refl.report name).round
  | cons c cs => exact (Machine.pass_first c cs w).round

theorem Repeat.quiet_complete (s : Repeat) (count : UInt32) (cs : List γ) (w : World η) :
    m.Quiet cs w (complete m s count cs w).next.2 (complete m s count cs w).world := by
  unfold complete
  split
  · exact .refl
  split
  · exact Machine.quiet_resetAll cs w
  · exact .refl

theorem Repeat.tick_round (name : String) (now : Moment) (s : Repeat) (count : UInt32)
    (cs : List γ) (w : World η) :
    m.Round now cs w (tick m name now s count cs w).next.2
      (tick m name now s count cs w).world := by
  unfold tick
  split
  · exact Quiet.refl.round
  cases cs with
  | nil => exact (Quiet.refl.report name).round
  | cons c cs =>
    have hticked : m.Round now (c :: cs) w _ _ := (Machine.pass_first c cs w).round
    dsimp only
    split
    · exact hticked
    · exact hticked.quiet (quiet_complete s _ _ _)
    · split
      · exact hticked
      · exact hticked.quiet (quiet_complete s _ _ _)

theorem Retry.attempt_round (name : String) (now : Moment) (failures : UInt32) (cs : List γ)
    (w : World η) :
    m.Round now cs w (attempt m name now failures cs w).next.2
      (attempt m name now failures cs w).world := by
  cases cs with
  | nil => exact (Quiet.refl.report name).round
  | cons c cs =>
    have hticked : m.Round now (c :: cs) w _ _ := (Machine.pass_first c cs w).round
    simp only [attempt]
    split <;> exact hticked

theorem Retry.tick_round (name : String) (now : Moment) (s : Retry) (p : Progress)
    (cs : List γ) (w : World η) :
    m.Round now cs w (tick m name now s p cs w).next.2 (tick m name now s p cs w).world := by
  unfold tick
  split
  · exact attempt_round name now p.failures cs w
  split
  · exact Quiet.refl.round
  split
  · exact Quiet.refl.round
  -- the only control that touches its child before it ticks it
  · exact .after_quiet (Machine.quiet_resetAll cs w) (attempt_round name now p.failures _ _)

theorem Timeout.tick_round (name : String) (now : Moment) (s : Timeout)
    (startedAt : Option Float) (cs : List γ) (w : World η) :
    m.Round now cs w (tick m name now s startedAt cs w).next.2
      (tick m name now s startedAt cs w).world := by
  unfold tick
  dsimp only
  split
  · exact (Machine.quiet_cancelAll cs w).round
  cases cs with
  | nil => exact (Quiet.refl.report name).round
  | cons c cs => exact (Machine.pass_first c cs w).round

/-- A tick of any control goes along its children once, between resets, cancellations and
    reports. -/
theorem Control.tick_round (name : String) (now : Moment) (control : Control) (cs : List γ)
    (w : World η) :
    m.Round now cs w (control.tick m name now cs w).next.2
      (control.tick m name now cs w).world := by
  cases control with
  | sequence cursor => exact Ordered.tick_round .success now cursor cs w
  | selector cursor => exact Ordered.tick_round .failure now cursor cs w
  | parallel settings => exact Parallel.tick_round now settings cs w
  | inverter => exact Inverter.tick_round name now cs w
  | repeater settings count => exact Repeat.tick_round name now settings count cs w
  | retry settings progress => exact Retry.tick_round name now settings progress cs w
  | timeout settings startedAt => exact Timeout.tick_round name now settings startedAt cs w
  | custom settings => exact (Machine.pass_tickAll cs w).round

end BehaviorTree
