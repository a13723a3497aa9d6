import BehaviorTree.Control.Basic

namespace BehaviorTree

/-!
# Machines that agree on the children at hand

A control node sees its children only through a machine, so two machines that tick the children of
a node alike, and reset and cancel alike, give the same tick of the node.  Main statement:
`Control.tick_congr`.
-/

namespace Machine

variable {γ η : Type}

/-- Two machines that reset and cancel alike, and tick alike the children in `P`, which a reset does
    not leave. -/
structure AgreeOn (P : γ → Prop) (m m' : Machine γ η) : Prop where
  tick : ∀ now c w, P c → m.tick now c w = m'.tick now c w
  reset : m.reset = m'.reset
  cancel : m.cancel = m'.cancel
  closed : ∀ c h, P c → P (m.reset c h).1

variable {P : γ → Prop} {m m' : Machine γ η}

theorem AgreeOn.resetAll (a : AgreeOn P m m') (cs : List γ) (w : World η) :
    m.resetAll cs w = m'.resetAll cs w := by
  simp only [Machine.resetAll, a.reset]

theorem AgreeOn.cancelAll (a : AgreeOn P m m') (cs : List γ) (w : World η) :
    m.cancelAll cs w = m'.cancelAll cs w := by
  simp only [Machine.cancelAll, a.cancel]

theorem AgreeOn.sweep_closed (a : AgreeOn P m m') {cs : List γ} (hcs : ∀ c ∈ cs, P c) (h : η) :
    ∀ c ∈ (sweep m.reset cs h).1, P c :=
  forall_mem_sweep (fun c hc h => a.closed c h (hcs c hc)) h

theorem AgreeOn.tickAll (a : AgreeOn P m m') (now : Moment) {cs : List γ}
    (hcs : ∀ c ∈ cs, P c) (w : World η) : m.tickAll now cs w = m'.tickAll now cs w := by
  induction cs generalizing w with
  | nil => rfl
  | cons c cs ih =>
    have hc := a.tick now c w (hcs c (by simp))
    have hr := ih (fun x hx => hcs x (by simp [hx])) (m'.tick now c w).world
    simp only [Machine.tickAll, hc, hr]

end Machine

variable {γ η : Type} {P : γ → Prop} {m m' : Machine γ η}

theorem Ordered.walk_congr (a : Machine.AgreeOn P m m') (goOn : Status) (now : Moment)
    (cursor : Nat) {cs : List γ} (hcs : ∀ c ∈ cs, P c) (w : World η) :
    walk m goOn now cursor cs w = walk m' goOn now cursor cs w := by
  induction cs generalizing cursor w with
  | nil => cases cursor <;> rfl
  | cons c cs ih =>
    have hrest : ∀ x ∈ cs, P x := fun x hx => hcs x (by simp [hx])
    cases cursor with
    | zero =>
      simp only [walk, a.tick now c w (hcs c (by simp)), ih 0 hrest]
    | succ cursor => simp only [walk, ih cursor hrest w]

theorem Ordered.tick_congr (a : Machine.AgreeOn P m m') (goOn : Status) (now : Moment)
    (cursor : Nat) {cs : List γ} (hcs : ∀ c ∈ cs, P c) (w : World η) :
    tick m goOn now cursor cs w = tick m' goOn now cursor cs w := by
  simp only [tick, walk_congr a goOn now cursor hcs w, a.resetAll]

theorem Parallel.cancelRunning_congr (a : Machine.AgreeOn P m m') (answers : List Status)
    (cs : List γ) (h : η) : cancelRunning m answers cs h = cancelRunning m' answers cs h := by
  induction answers generalizing cs h with
  | nil => simp [cancelRunning]
  | cons s answers ih =>
    cases cs with
    | nil => cases s <;> simp [cancelRunning]
    | cons c cs => cases s <;> simp only [cancelRunning, a.cancel, ih]

theorem Parallel.tick_congr (a : Machine.AgreeOn P m m') (now : Moment) (p : Parallel)
    {cs : List γ} (hcs : ∀ c ∈ cs, P c) (w : World η) :
    tick m now p cs w = tick m' now p cs w := by
  have hcancel : cancelRunning m = cancelRunning m' := by
    funext answers cs h
    exact cancelRunning_congr a answers cs h
  simp only [tick, a.tickAll now hcs w, hcancel, a.resetAll]

theorem Inverter.tick_congr (a : Machine.AgreeOn P m m') (name : String) (now : Moment)
    {cs : List γ} (hcs : ∀ c ∈ cs, P c) (w : World η) :
    tick m name now cs w = tick m' name now cs w := by
  cases cs with
  | nil => rfl
  | cons c cs => simp only [tick, a.tick now c w (hcs c (by simp))]

theorem Repeat.tick_congr (a : Machine.AgreeOn P m m') (name : String) (now : Moment)
    (s : Repeat) (count : UInt32) {cs : List γ} (hcs : ∀ c ∈ cs, P c) (w : World η) :
    tick m name now s count cs w = tick m' name now s count cs w := by
  cases cs with
  | nil => rfl
  | cons c cs =>
    simp only [tick, complete, a.tick now c w (hcs c (by simp)), a.resetAll]

theorem Retry.attempt_congr (a : Machine.AgreeOn P m m') (name : String) (now : Moment)
    (failures : UInt32) {cs : List γ} (hcs : ∀ c ∈ cs, P c) (w : World η) :
    attempt m name now failures cs w = attempt m' name now failures cs w := by
  cases cs with
  | nil => rfl
  | cons c cs => simp only [attempt, a.tick now c w (hcs c (by simp))]

theorem Retry.tick_congr (a : Machine.AgreeOn P m m') (name : String) (now : Moment) (s : Retry)
    (p : Progress) {cs : List γ} (hcs : ∀ c ∈ cs, P c) (w : World η) :
    tick m name now s p cs w = tick m' name now s p cs w := by
  have hreset : ∀ c ∈ (m'.resetAll cs w).1, P c := by
    rw [← a.resetAll]
    exact a.sweep_closed hcs w.host
  simp only [tick, attempt_congr a name now p.failures hcs w, a.resetAll,
    attempt_congr a name now p.failures hreset]

theorem Timeout.tick_congr (a : Machine.AgreeOn P m m') (name : String) (now : Moment)
    (s : Timeout) (startedAt : Option Float) {cs : List γ} (hcs : ∀ c ∈ cs, P c) (w : World η) :
    tick m name now s startedAt cs w = tick m' name now s startedAt cs w := by
  cases cs with
  | nil => simp only [tick, a.cancelAll]
  | cons c cs => simp only [tick, a.tick now c w (hcs c (by simp)), a.cancelAll]

/-- Two machines that agree on the children of a node give the same tick of the node. -/
theorem Control.tick_congr (a : Machine.AgreeOn P m m') (name : String) (now : Moment)
    (control : Control) {cs : List γ} (hcs : ∀ c ∈ cs, P c) (w : World η) :
    control.tick m name now cs w = control.tick m' name now cs w := by
  cases control with
  | sequence cursor => simp only [tick, Ordered.tick_congr a .success now cursor hcs w]
  | selector cursor => simp only [tick, Ordered.tick_congr a .failure now cursor hcs w]
  | parallel settings => simp only [tick, Parallel.tick_congr a now settings hcs w]
  | inverter => simp only [tick, Inverter.tick_congr a name now hcs w]
  | repeater settings count => simp only [tick, Repeat.tick_congr a name now settings count hcs w]
  | retry settings progress => simp only [tick, Retry.tick_congr a name now settings progress hcs w]
  | timeout settings startedAt =>
    simp only [tick, Timeout.tick_congr a name now settings startedAt hcs w]
  | custom settings => simp only [tick, a.tickAll now hcs w]

end BehaviorTree
