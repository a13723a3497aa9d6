import BehaviorTree.Proofs.Node.Calls

namespace BehaviorTree

/-!
# Flags and times

A retry node and a timeout node remember a time, or that there is none.  They can as well be written
with a time that is always there and a flag that tells whether it counts.  What ends a run clears the
flag, and sometimes the time; a time that stays behind is not looked at before the next one is noted.

* `Retry.Flagged`, `Timeout.Flagged` — the two nodes with a flag and a time;
* `Routine` — what an inner node with a state of any type does on a tick, a reset and a cancel;
* `Routine.Refines` — the states of a routine stand for controls;
* `Routine.Refines.simulation` — over children that stand for trees, such a node stands for a tree;
* `Retry.Flagged.refines`, `Timeout.Flagged.refines` — the flag and the time stand for the time that a
  node remembers;
* `Retry.Flagged.answers_eq`, `Timeout.Flagged.answers_eq` — so no sequence of calls to a tree tells the
  two apart.
-/

variable {γ η σ : Type}

/-! ### Routines -/

/-- What an inner node does on a tick, and what a reset and a cancel leave of its state. -/
structure Routine (σ γ η : Type) where
  tick : Moment → σ → List γ → World η → Outcome (σ × List γ) η
  restart : σ → σ
  abandon : σ → σ

/-- A node with its children.  Resets and cancels go to all of them. -/
def Routine.node (m : Machine γ η) (r : Routine σ γ η) : Machine (σ × List γ) η where
  tick now n w := r.tick now n.1 n.2 w
  reset n h := ((r.restart n.1, (Machine.sweep m.reset n.2 h).1), (Machine.sweep m.reset n.2 h).2)
  cancel n h := ((r.abandon n.1, (Machine.sweep m.cancel n.2 h).1), (Machine.sweep m.cancel n.2 h).2)

/-- Every state stands for a control, the one that it is a state `of`, and what the routine makes of the
    state stands for what becomes of the control. -/
structure Routine.Refines (m : Machine γ η) (name : String) (r : Routine σ γ η) (of : σ → Control) :
    Prop where
  tick : ∀ now a cs w,
    (r.tick now a cs w).map (fun n => (of n.1, n.2)) = (of a).tick m name now cs w
  restart : ∀ a, of (r.restart a) = (of a).restart
  abandon : ∀ a, of (r.abandon a) = (of a).abandon

section

variable {β : Type} [Behavior β η] {R : γ → Node β → Prop}

/-- A node stands for a tree: its state for the control, and its children for those of the tree. -/
def StandsFor (R : γ → Node β → Prop) (info : NodeInfo) (of : σ → Control) (a : σ × List γ)
    (n : Node β) : Prop :=
  ∃ cs, n = .inner info (of a.1) cs ∧ List.Forall₂ R a.2 cs

/-- Over children that stand for trees, a node stands for a tree. -/
theorem Routine.Refines.simulation {m : Machine γ η} {r : Routine σ γ η} {of : σ → Control}
    {info : NodeInfo} (h : r.Refines m info.name of) (s : m.Simulation R Node.machine) :
    (r.node m).Simulation (StandsFor R info of) Node.machine where
  tick := by
    rintro now a _ w ⟨cs, rfl, hcs⟩
    -- a control does not tell the children from the trees that they stand for
    have hmatch := Control.tick_match s info.name now (of a.1) hcs w
    rw [← h.tick] at hmatch
    obtain ⟨hstatus, ⟨hcontrol, hchildren⟩, hworld⟩ := hmatch
    simp only [Node.machine, Node.execute_inner]
    refine ⟨hstatus, ⟨_, ?_, hchildren⟩, hworld⟩
    exact congrArg (Node.inner info · _) hcontrol.symm
  reset := by
    rintro a _ host ⟨cs, rfl, hcs⟩
    obtain ⟨hchildren, hhost⟩ := Machine.sweep_alike hcs (fun c _ d => s.reset c d) host
    simp only [Node.machine, Node.reset, Node.broadcast_inner]
    exact ⟨⟨_, congrArg (Node.inner info · _) (h.restart a.1).symm, hchildren⟩, hhost⟩
  cancel := by
    rintro a _ host ⟨cs, rfl, hcs⟩
    obtain ⟨hchildren, hhost⟩ := Machine.sweep_alike hcs (fun c _ d => s.cancel c d) host
    simp only [Node.machine, Node.cancel, Node.broadcast_inner]
    exact ⟨⟨_, congrArg (Node.inner info · _) (h.abandon a.1).symm, hchildren⟩, hhost⟩

end

/-! ### Retry nodes -/

/-- A retry node, with a flag that tells whether it waits. -/
structure Retry.Flagged where
  settings : Retry
  /-- The failures since the last success. -/
  failures : UInt32 := 0
  waiting : Bool := false
  /-- When the child failed last. -/
  lastFailure : Float := 0.0

namespace Retry.Flagged

/-- The control that remembers the time only while the node waits. -/
def control (f : Flagged) : Control :=
  .retry f.settings
    { failures := f.failures, waitingSince := if f.waiting then some f.lastFailure else none }

/-- The node at the start of a run. -/
def clear (f : Flagged) : Flagged := { settings := f.settings }

/-- The child's try. -/
def attempt (m : Machine γ η) (name : String) (now : Moment) (f : Flagged) :
    List γ → World η → Outcome (Flagged × List γ) η
  | [], w => ⟨.failure, (f, []), w.emit (childMissing name)⟩
  | c :: cs, w =>
    let o := m.tick now c w
    match o.status with
    | .running => ⟨.running, (f, o.next :: cs), o.world⟩
    | .success => ⟨.success, ({ f with failures := 0 }, o.next :: cs), o.world⟩
    | .failure =>
      ⟨.running, ({ f with failures := bump f.failures, waiting := true, lastFailure := now.now },
        o.next :: cs), o.world⟩

/-- One tick.  The time of the last failure is left where it is when the node stops to wait. -/
def tick (m : Machine γ η) (name : String) (now : Moment) (f : Flagged) (cs : List γ) (w : World η) :
    Outcome (Flagged × List γ) η :=
  if f.waiting then
    if f.settings.budget < f.failures then ⟨.failure, (f.clear, cs), w⟩
    else if f.settings.delayed now f.lastFailure then ⟨.running, (f, cs), w⟩
    else
      let (cs, w) := m.resetAll cs w
      attempt m name now { f with waiting := false } cs w
  else attempt m name now f cs w

/-- What a retry node with a flag does. -/
def routine (m : Machine γ η) (name : String) : Routine Flagged γ η where
  tick := tick m name
  restart := clear
  abandon := clear

/-- A try of a node that does not wait.  Whatever the time was, there is none for the control. -/
theorem map_attempt (m : Machine γ η) (name : String) (now : Moment) {f : Flagged}
    (h : f.waiting = false) (cs : List γ) (w : World η) :
    (attempt m name now f cs w).map (fun n => (n.1.control, n.2)) =
      (Retry.attempt m name now f.failures cs w).map (fun n => (.retry f.settings n.1, n.2)) := by
  cases cs with
  | nil => simp [attempt, Retry.attempt, Outcome.map, control, h]
  | cons c cs =>
    simp only [attempt, Retry.attempt]
    cases (m.tick now c w).status <;> simp [Outcome.map, control, h]

theorem refines (m : Machine γ η) (name : String) :
    (routine m name).Refines m name control where
  tick now f cs w := by
    simp only [routine, tick]
    cases hwaiting : f.waiting with
    | false =>
      simp only [Bool.false_eq_true, if_false, map_attempt m name now hwaiting]
      simp only [Control.tick, control, Retry.tick, hwaiting]
      rfl
    | true =>
      simp only [Control.tick, control, Retry.tick, hwaiting, if_true]
      split
      · rfl
      split
      · simp only [Outcome.map, hwaiting, if_true]
      -- the flag is cleared before the try, so that the time of the last failure counts no more
      · exact map_attempt m name now rfl _ _
  restart _ := rfl
  abandon _ := rfl

/-- **A retry node with a flag is a retry node.**  Whatever its child does and whatever it was left with,
    it answers every sequence of calls like the node that remembers the time only while it waits.  The
    child may be written in such a way as well. -/
theorem answers_eq {β : Type} [Behavior β η] {R : γ → Node β → Prop} {m : Machine γ η}
    (s : m.Simulation R Node.machine) (info : NodeInfo) (f : Flagged) {cs : List γ}
    {ds : List (Node β)} (hcs : List.Forall₂ R cs ds) (w : World η)
    (calls : List (Call × World.Change η)) :
    ((routine m info.name).node m).answers (f, cs) w calls =
      (Node.inner info f.control ds).answers w calls :=
  ((refines m info.name).simulation s).answers_eq calls ⟨ds, rfl, hcs⟩ w

end Retry.Flagged

/-! ### Timeout nodes -/

/-- A timeout node, with a flag that tells whether a run goes on. -/
structure Timeout.Flagged where
  settings : Timeout
  running : Bool := false
  /-- When the last run began. -/
  startTime : Float := 0.0

namespace Timeout.Flagged

/-- When the run began that goes on. -/
def startedAt (f : Flagged) : Option Float := if f.running then some f.startTime else none

/-- The control that remembers the time only while a run goes on. -/
def control (f : Flagged) : Control := .timeout f.settings f.startedAt

/-- The node in the run that goes on, or in a new one. -/
def begun (now : Moment) (f : Flagged) : Flagged :=
  if f.running then f else { f with running := true, startTime := now.now }

/-- The node after a run.  The time at which it began is left where it is. -/
def ended (f : Flagged) : Flagged := { f with running := false }

/-- One tick. -/
def tick (m : Machine γ η) (name : String) (now : Moment) (f : Flagged) (cs : List γ) (w : World η) :
    Outcome (Flagged × List γ) η :=
  let f := f.begun now
  if f.settings.limit ≤ now.elapsed f.startTime then
    let (cs, w) := m.cancelAll cs w
    ⟨.ofBool f.settings.successOnTimeout, (f.ended, cs), w⟩
  else match cs with
    | [] => ⟨.failure, (f.ended, []), w.emit (childMissing name)⟩
    | c :: cs =>
      let o := m.tick now c w
      ⟨o.status, (if o.status.isTerminal then f.ended else f, o.next :: cs), o.world⟩

/-- What a timeout node with a flag does.  A reset clears the time as well, and a cancel does not. -/
def routine (m : Machine γ η) (name : String) : Routine Flagged γ η where
  tick := tick m name
  restart f := { settings := f.settings }
  abandon := ended

theorem startTime_begun (now : Moment) (f : Flagged) :
    (f.begun now).startTime = f.startedAt.getD now.now := by
  unfold begun startedAt
  split <;> rfl

theorem settings_begun (now : Moment) (f : Flagged) : (f.begun now).settings = f.settings := by
  unfold begun
  split <;> rfl

theorem control_begun (now : Moment) (f : Flagged) :
    (f.begun now).control = .timeout f.settings (some (f.startedAt.getD now.now)) := by
  have hrunning : (f.begun now).running = true := by
    unfold begun
    split
    · assumption
    · rfl
  rw [control, startedAt, hrunning, settings_begun, startTime_begun]
  rfl

theorem control_ended (f : Flagged) : f.ended.control = .timeout f.settings none := rfl

theorem refines (m : Machine γ η) (name : String) :
    (routine m name).Refines m name control where
  tick now f cs w := by
    show (tick m name now f cs w).map _ =
      (Timeout.tick m name now f.settings f.startedAt cs w).map fun n =>
        (Control.timeout f.settings n.1, n.2)
    unfold tick Timeout.tick
    dsimp only
    rw [settings_begun, startTime_begun]
    split
    · simp only [Outcome.map, control_ended, settings_begun]
    -- the run goes on only if the child does
    cases cs with
    | nil => simp only [Outcome.map, control_ended, settings_begun]
    | cons c cs =>
      cases hanswer : (m.tick now c w).status.isTerminal with
      | true => simp only [Outcome.map, hanswer, if_true, control_ended, settings_begun]
      | false => simp only [Outcome.map, hanswer, Bool.false_eq_true, if_false, control_begun]
  restart _ := rfl
  abandon _ := rfl

/-- **A timeout node with a flag is a timeout node.**  Whatever its child does and whatever it was left
    with, it answers every sequence of calls like the node that remembers the time only while a run goes
    on.  The child may be written in such a way as well. -/
theorem answers_eq {β : Type} [Behavior β η] {R : γ → Node β → Prop} {m : Machine γ η}
    (s : m.Simulation R Node.machine) (info : NodeInfo) (f : Flagged) {cs : List γ}
    {ds : List (Node β)} (hcs : List.Forall₂ R cs ds) (w : World η)
    (calls : List (Call × World.Change η)) :
    ((routine m info.name).node m).answers (f, cs) w calls =
      (Node.inner info f.control ds).answers w calls :=
  ((refines m info.name).simulation s).answers_eq calls ⟨ds, rfl, hcs⟩ w

/-- A cancelled node keeps the time that a reset clears, and stands for the same control. -/
example : (ended { settings := {}, running := true, startTime := 2.0 }).control =
    Flagged.control { settings := {} } := rfl

end Timeout.Flagged

end BehaviorTree
