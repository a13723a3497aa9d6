import BehaviorTree.Control.Basic
import Mathlib.Data.List.Forall2

namespace BehaviorTree

/-!
# Controls over other children and other hosts

A control sees its children only through a machine, and the state of the host not at all.  Take
children related by `R` and hosts related by `S`, and two machines that answer alike and keep both
related: then a control cannot tell the two sides apart.

* `World.Match` — two worlds that differ in the state of the host only;
* `Machine.Correspondence` — two machines that answer alike and keep children and hosts related;
* `Control.tick_corresponds` — over such machines every control ticks alike, and its progress is the
  same on both sides.
-/

variable {γ δ η θ : Type}

/-! ### Worlds and outcomes -/

/-- Two worlds that are the same but for the state of the host, which is related by `S`. -/
structure World.Match (S : η → θ → Prop) (w : World η) (v : World θ) : Prop where
  blackboard : w.blackboard = v.blackboard
  received : w.received = v.received
  events : w.events = v.events
  host : S w.host v.host

/-- Two outcomes with the same answer, related results and matching worlds. -/
structure Outcome.Corresponds {σ τ : Type} (R : σ → τ → Prop) (S : η → θ → Prop)
    (o : Outcome σ η) (p : Outcome τ θ) : Prop where
  status : o.status = p.status
  next : R o.next p.next
  world : World.Match S o.world p.world

/-- Two lists of children related one by one, beside two equal values. -/
def Beside {α : Type} (R : γ → δ → Prop) (a : α × List γ) (b : α × List δ) : Prop :=
  a.1 = b.1 ∧ List.Forall₂ R a.2 b.2

section

variable {S : η → θ → Prop} {w : World η} {v : World θ}

/-- A report does not look at the state of the host. -/
theorem World.Match.emit (h : World.Match S w v) (r : Log.Record) :
    World.Match S (w.emit r) (v.emit r) := by
  obtain ⟨blackboard, received, events, host⟩ := w
  obtain ⟨blackboard', received', events', host'⟩ := v
  obtain ⟨hblackboard, hreceived, hevents, hhost⟩ := h
  obtain rfl : blackboard = blackboard' := hblackboard
  obtain rfl : received = received' := hreceived
  obtain rfl : events = events' := hevents
  simp only [World.emit, World.remember]
  cases blackboard.load? Log.History historyKey.name <;>
    cases (blackboard.load? Sink sinkKey.name).getD .diagnostics <;>
      exact ⟨rfl, rfl, rfl, hhost⟩

theorem World.match_eq_iff {w v : World η} : World.Match Eq w v ↔ w = v := by
  constructor
  · rintro ⟨hblackboard, hreceived, hevents, hhost⟩
    cases w
    cases v
    simp_all
  · rintro rfl
    exact ⟨rfl, rfl, rfl, rfl⟩

theorem Outcome.Corresponds.relabel {α : Type} {R : γ → δ → Prop} {o : Outcome (α × List γ) η}
    {p : Outcome (α × List δ) θ} (h : o.Corresponds (Beside R) S p) (f : α → Control) :
    (o.map fun r => (f r.1, r.2)).Corresponds (Beside R) S (p.map fun r => (f r.1, r.2)) :=
  ⟨h.status, ⟨congrArg f h.next.1, h.next.2⟩, h.world⟩

theorem Outcome.Corresponds.label {R : γ → δ → Prop} {o : Outcome (List γ) η}
    {p : Outcome (List δ) θ} (h : o.Corresponds (List.Forall₂ R) S p) (b : Control) :
    (o.map fun cs => (b, cs)).Corresponds (Beside R) S (p.map fun cs => (b, cs)) :=
  ⟨h.status, ⟨rfl, h.next⟩, h.world⟩

end

/-! ### Machines -/

namespace Machine

/-- Two actions on a child and the state of the host that keep both related. -/
def Paired (R : γ → δ → Prop) (S : η → θ → Prop) (f : γ → η → γ × η) (g : δ → θ → δ × θ) : Prop :=
  ∀ c d h h', R c d → S h h' → R (f c h).1 (g d h').1 ∧ S (f c h).2 (g d h').2

/-- The children on one side may be limited to those with a property that the action keeps. -/
theorem Paired.restrict {R : γ → δ → Prop} {S : η → θ → Prop} {f : γ → η → γ × η}
    {g : δ → θ → δ × θ} {p : γ → Prop} (a : Paired R S f g) (hp : ∀ c h, p c → p (f c h).1) :
    Paired (fun c d => p c ∧ R c d) S f g := by
  intro c d h h' hcd hh
  obtain ⟨hnext, hhost⟩ := a c d h h' hcd.2 hh
  exact ⟨⟨hp c h hcd.1, hnext⟩, hhost⟩

/-- Two machines that answer alike and keep children and hosts related. -/
structure Correspondence (R : γ → δ → Prop) (S : η → θ → Prop) (m : Machine γ η)
    (k : Machine δ θ) : Prop where
  tick : ∀ now {c d w v}, R c d → World.Match S w v →
    (m.tick now c w).Corresponds R S (k.tick now d v)
  reset : Paired R S m.reset k.reset
  cancel : Paired R S m.cancel k.cancel

variable {R : γ → δ → Prop} {S : η → θ → Prop} {m : Machine γ η} {k : Machine δ θ}
  {cs : List γ} {ds : List δ} {w : World η} {v : World θ}

/-- A sweep with actions that keep the children at hand and the hosts related. -/
theorem sweep_paired {f : γ → η → γ × η} {g : δ → θ → δ × θ} (hcs : List.Forall₂ R cs ds)
    (hf : ∀ c ∈ cs, ∀ d h h', R c d → S h h' → R (f c h).1 (g d h').1 ∧ S (f c h).2 (g d h').2)
    {h : η} {h' : θ} (hh : S h h') :
    List.Forall₂ R (sweep f cs h).1 (sweep g ds h').1 ∧ S (sweep f cs h).2 (sweep g ds h').2 := by
  induction hcs generalizing h h' with
  | nil => exact ⟨.nil, hh⟩
  | @cons c d cs ds hcd _ ih =>
    obtain ⟨hnext, hhost⟩ := hf c List.mem_cons_self d h h' hcd hh
    have hrest := ih (fun x hx => hf x (List.mem_cons_of_mem c hx)) hhost
    exact ⟨.cons hnext hrest.1, hrest.2⟩

theorem Paired.atHost {f : γ → η → γ × η} {g : δ → θ → δ × θ} (a : Paired R S f g)
    (hcs : List.Forall₂ R cs ds) (hw : World.Match S w v) :
    List.Forall₂ R (w.atHost (Machine.sweep f cs)).1 (v.atHost (Machine.sweep g ds)).1 ∧
      World.Match S (w.atHost (Machine.sweep f cs)).2 (v.atHost (Machine.sweep g ds)).2 := by
  obtain ⟨hnext, hhost⟩ := sweep_paired hcs (fun c _ d h h' => a c d h h') hw.host
  exact ⟨hnext, ⟨hw.blackboard, hw.received, hw.events, hhost⟩⟩

theorem Correspondence.resetAll (s : Correspondence R S m k) (hcs : List.Forall₂ R cs ds)
    (hw : World.Match S w v) :
    List.Forall₂ R (m.resetAll cs w).1 (k.resetAll ds v).1 ∧
      World.Match S (m.resetAll cs w).2 (k.resetAll ds v).2 :=
  s.reset.atHost hcs hw

theorem Correspondence.cancelAll (s : Correspondence R S m k) (hcs : List.Forall₂ R cs ds)
    (hw : World.Match S w v) :
    List.Forall₂ R (m.cancelAll cs w).1 (k.cancelAll ds v).1 ∧
      World.Match S (m.cancelAll cs w).2 (k.cancelAll ds v).2 :=
  s.cancel.atHost hcs hw

theorem Correspondence.tickAll (s : Correspondence R S m k) (now : Moment)
    (hcs : List.Forall₂ R cs ds) (hw : World.Match S w v) :
    (m.tickAll now cs w).1 = (k.tickAll now ds v).1 ∧
      List.Forall₂ R (m.tickAll now cs w).2.1 (k.tickAll now ds v).2.1 ∧
      World.Match S (m.tickAll now cs w).2.2 (k.tickAll now ds v).2.2 := by
  induction hcs generalizing w v with
  | nil => exact ⟨rfl, .nil, hw⟩
  | @cons c d cs ds hcd _ ih =>
    have hc := s.tick now hcd hw
    obtain ⟨hanswers, hnext, hworld⟩ := ih hc.world
    simp only [Machine.tickAll, hc.status]
    exact ⟨by rw [hanswers], .cons hc.next hnext, hworld⟩

end Machine

/-! ### Controls -/

variable {R : γ → δ → Prop} {S : η → θ → Prop} {m : Machine γ η} {k : Machine δ θ}
  {cs : List γ} {ds : List δ} {w : World η} {v : World θ}

theorem Ordered.walk_corresponds (s : m.Correspondence R S k) (goOn : Status) (now : Moment)
    (cursor : Nat) (hcs : List.Forall₂ R cs ds) (hw : World.Match S w v) :
    (walk m goOn now cursor cs w).Corresponds (Beside R) S (walk k goOn now cursor ds v) := by
  induction hcs generalizing cursor w v with
  | nil => cases cursor <;> exact ⟨rfl, ⟨rfl, .nil⟩, hw⟩
  | @cons c d cs ds hcd hrest ih =>
    cases cursor with
    | succ cursor =>
      obtain ⟨hstatus, ⟨hcursor, hnext⟩, hworld⟩ := ih cursor hw
      exact ⟨hstatus, ⟨congrArg (· + 1) hcursor, .cons hcd hnext⟩, hworld⟩
    | zero =>
      have hc := s.tick now hcd hw
      simp only [walk, hc.status]
      split
      · obtain ⟨hstatus, ⟨hcursor, hnext⟩, hworld⟩ := ih 0 hc.world
        exact ⟨hstatus, ⟨congrArg (· + 1) hcursor, .cons hc.next hnext⟩, hworld⟩
      · exact ⟨rfl, ⟨rfl, .cons hc.next hrest⟩, hc.world⟩

theorem Ordered.tick_corresponds (s : m.Correspondence R S k) (goOn : Status) (now : Moment)
    (cursor : Nat) (hcs : List.Forall₂ R cs ds) (hw : World.Match S w v) :
    (tick m goOn now cursor cs w).Corresponds (Beside R) S (tick k goOn now cursor ds v) := by
  have hwalk := walk_corresponds s goOn now cursor hcs hw
  obtain ⟨hreset, hworld⟩ := s.resetAll hwalk.next.2 hwalk.world
  simp only [tick, hwalk.status]
  split
  · exact hwalk
  · exact ⟨rfl, ⟨rfl, hreset⟩, hworld⟩

theorem Parallel.cancelRunning_paired (s : m.Correspondence R S k) (answers : List Status)
    (hcs : List.Forall₂ R cs ds) {h : η} {h' : θ} (hh : S h h') :
    List.Forall₂ R (cancelRunning m answers cs h).1 (cancelRunning k answers ds h').1 ∧
      S (cancelRunning m answers cs h).2 (cancelRunning k answers ds h').2 := by
  induction hcs generalizing answers h h' with
  | nil =>
    match answers with
    | [] | .running :: _ | .success :: _ | .failure :: _ => exact ⟨.nil, hh⟩
  | @cons c d cs ds hcd hrest ih =>
    match answers with
    | [] => exact ⟨.cons hcd hrest, hh⟩
    | .running :: answers =>
      obtain ⟨hnext, hhost⟩ := s.cancel c d h h' hcd hh
      obtain ⟨hnexts, hhosts⟩ := ih answers hhost
      exact ⟨.cons hnext hnexts, hhosts⟩
    | .success :: answers | .failure :: answers =>
      exact ⟨.cons hcd (ih answers hh).1, (ih answers hh).2⟩

theorem Parallel.tick_corresponds (s : m.Correspondence R S k) (now : Moment) (p : Parallel)
    (hcs : List.Forall₂ R cs ds) (hw : World.Match S w v) :
    (tick m now p cs w).Corresponds (List.Forall₂ R) S (tick k now p ds v) := by
  have hempty : cs.isEmpty = ds.isEmpty := by cases hcs <;> rfl
  have hall := s.tickAll now hcs hw
  rw [tick, tick, hempty]
  split
  · exact ⟨rfl, hcs, hw⟩
  generalize m.tickAll now cs w = r at hall ⊢
  generalize k.tickAll now ds v = r' at hall ⊢
  obtain ⟨answers, cs', w'⟩ := r
  obtain ⟨answers', ds', v'⟩ := r'
  obtain ⟨rfl, hnext, hworld⟩ := hall
  -- a tick that decides cancels the running children and then resets all of them
  obtain ⟨hcancel, hhost⟩ := cancelRunning_paired s answers hnext hworld.host
  have hend := s.resetAll hcancel (w := (w'.atHost (cancelRunning m answers cs')).2)
    (v := (v'.atHost (cancelRunning k answers ds')).2)
    ⟨hworld.blackboard, hworld.received, hworld.events, hhost⟩
  cases hdecide : p.decide answers with
  | running => simp only [hdecide]; exact ⟨rfl, hnext, hworld⟩
  | success => simp only [hdecide]; exact ⟨rfl, hend.1, hend.2⟩
  | failure => simp only [hdecide]; exact ⟨rfl, hend.1, hend.2⟩

theorem Inverter.tick_corresponds (s : m.Correspondence R S k) (name : String) (now : Moment)
    (hcs : List.Forall₂ R cs ds) (hw : World.Match S w v) :
    (tick m name now cs w).Corresponds (List.Forall₂ R) S (tick k name now ds v) := by
  cases hcs with
  | nil => exact ⟨rfl, .nil, hw.emit _⟩
  | cons hcd hrest =>
    have hc := s.tick now hcd hw
    exact ⟨congrArg Status.invert hc.status, .cons hc.next hrest, hc.world⟩

theorem Repeat.complete_corresponds (s : m.Correspondence R S k) (settings : Repeat)
    (count : UInt32) (hcs : List.Forall₂ R cs ds) (hw : World.Match S w v) :
    (complete m settings count cs w).Corresponds (Beside R) S
      (complete k settings count ds v) := by
  unfold complete
  split
  · exact ⟨rfl, ⟨rfl, hcs⟩, hw⟩
  split
  · obtain ⟨hnext, hworld⟩ := s.resetAll hcs hw
    exact ⟨rfl, ⟨rfl, hnext⟩, hworld⟩
  · exact ⟨rfl, ⟨rfl, hcs⟩, hw⟩

theorem Repeat.tick_corresponds (s : m.Correspondence R S k) (name : String) (now : Moment)
    (settings : Repeat) (count : UInt32) (hcs : List.Forall₂ R cs ds) (hw : World.Match S w v) :
    (tick m name now settings count cs w).Corresponds (Beside R) S
      (tick k name now settings count ds v) := by
  unfold tick
  split
  · exact ⟨rfl, ⟨rfl, hcs⟩, hw⟩
  cases hcs with
  | nil => exact ⟨rfl, ⟨rfl, .nil⟩, hw.emit _⟩
  | @cons c d cs ds hcd hrest =>
    have hc := s.tick now hcd hw
    have hcs := List.Forall₂.cons hc.next hrest
    simp only [hc.status]
    cases (k.tick now d v).status with
    | running => exact ⟨rfl, ⟨rfl, hcs⟩, hc.world⟩
    | success => exact complete_corresponds s settings (bump count) hcs hc.world
    | failure =>
      simp only
      split
      · exact ⟨rfl, ⟨rfl, hcs⟩, hc.world⟩
      · exact complete_corresponds s settings (bump count) hcs hc.world

theorem Retry.attempt_corresponds (s : m.Correspondence R S k) (name : String) (now : Moment)
    (failures : UInt32) (hcs : List.Forall₂ R cs ds) (hw : World.Match S w v) :
    (attempt m name now failures cs w).Corresponds (Beside R) S
      (attempt k name now failures ds v) := by
  cases hcs with
  | nil => exact ⟨rfl, ⟨rfl, .nil⟩, hw.emit _⟩
  | @cons c d cs ds hcd hrest =>
    have hc := s.tick now hcd hw
    have hcs := List.Forall₂.cons hc.next hrest
    simp only [attempt, hc.status]
    cases (k.tick now d v).status <;> exact ⟨rfl, ⟨rfl, hcs⟩, hc.world⟩

theorem Retry.tick_corresponds (s : m.Correspondence R S k) (name : String) (now : Moment)
    (settings : Retry) (p : Progress) (hcs : List.Forall₂ R cs ds) (hw : World.Match S w v) :
    (tick m name now settings p cs w).Corresponds (Beside R) S
      (tick k name now settings p ds v) := by
  unfold tick
  cases p.waitingSince with
  | none => exact attempt_corresponds s name now p.failures hcs hw
  | some since =>
    simp only
    split
    · exact ⟨rfl, ⟨rfl, hcs⟩, hw⟩
    split
    · exact ⟨rfl, ⟨rfl, hcs⟩, hw⟩
    · obtain ⟨hnext, hworld⟩ := s.resetAll hcs hw
      exact attempt_corresponds s name now p.failures hnext hworld

theorem Timeout.tick_corresponds (s : m.Correspondence R S k) (name : String) (now : Moment)
    (settings : Timeout) (startedAt : Option Float) (hcs : List.Forall₂ R cs ds)
    (hw : World.Match S w v) :
    (tick m name now settings startedAt cs w).Corresponds (Beside R) S
      (tick k name now settings startedAt ds v) := by
  unfold tick
  dsimp only
  split
  · obtain ⟨hnext, hworld⟩ := s.cancelAll hcs hw
    exact ⟨rfl, ⟨rfl, hnext⟩, hworld⟩
  cases hcs with
  | nil => exact ⟨rfl, ⟨rfl, .nil⟩, hw.emit _⟩
  | @cons c d cs ds hcd hrest =>
    have hc := s.tick now hcd hw
    exact ⟨hc.status, ⟨by simp only [hc.status], .cons hc.next hrest⟩, hc.world⟩

/-- Over machines that correspond a control ticks alike: the same answer and the same progress,
    with children that are related again and worlds that match. -/
theorem Control.tick_corresponds (s : m.Correspondence R S k) (name : String) (now : Moment)
    (control : Control) (hcs : List.Forall₂ R cs ds) (hw : World.Match S w v) :
    (control.tick m name now cs w).Corresponds (Beside R) S (control.tick k name now ds v) := by
  cases control with
  | sequence cursor =>
    exact (Ordered.tick_corresponds s .success now cursor hcs hw).relabel .sequence
  | selector cursor =>
    exact (Ordered.tick_corresponds s .failure now cursor hcs hw).relabel .selector
  | parallel settings => exact (Parallel.tick_corresponds s now settings hcs hw).label _
  | inverter => exact (Inverter.tick_corresponds s name now hcs hw).label _
  | repeater settings count =>
    exact (Repeat.tick_corresponds s name now settings count hcs hw).relabel (.repeater settings)
  | retry settings progress =>
    exact (Retry.tick_corresponds s name now settings progress hcs hw).relabel (.retry settings)
  | timeout settings startedAt =>
    exact (Timeout.tick_corresponds s name now settings startedAt hcs hw).relabel
      (.timeout settings)
  | custom settings =>
    obtain ⟨hanswers, hnext, hworld⟩ := s.tickAll now hcs hw
    exact ⟨congrArg settings.verdict hanswers, ⟨rfl, hnext⟩, hworld⟩

end BehaviorTree
