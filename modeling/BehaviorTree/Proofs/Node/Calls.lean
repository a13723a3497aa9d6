import BehaviorTree.Node.Execute
import BehaviorTree.Proofs.Control.Simulation

namespace BehaviorTree

/-!
# Sequences of calls

A node gets three kinds of calls: it is executed, reset or cancelled.  `Node.answers` is all that a host
sees of a sequence of calls: what each of them answers, and the world that it leaves.

* `Machine.Correspondence.answers` — machines that correspond give the same answers, and leave worlds
  that match;
* `Machine.Simulation.answers_eq` — machines that simulate each other give the same answers, and leave
  the same worlds.
-/

/-- A call to a node. -/
inductive Call where
  | execute (now : Moment)
  | reset
  | cancel

variable {γ δ η θ : Type}

/-- The change that a host makes to its world between two calls. -/
abbrev World.Change (η : Type) := World η → World η

namespace Machine

/-- What a call answers, what it leaves of the child, and the world after it.  Only a tick has an
    answer. -/
def call (m : Machine γ η) : Call → γ → World η → Option Status × γ × World η
  | .execute now, c, w =>
    let o := m.tick now c w
    (some o.status, o.next, o.world)
  | .reset, c, w => (none, w.atHost (m.reset c))
  | .cancel, c, w => (none, w.atHost (m.cancel c))

/-- What a child answers to calls, and the worlds that it leaves.  Before each call the host changes
    the world as it likes. -/
def answers (m : Machine γ η) (c : γ) (w : World η) :
    List (Call × World.Change η) → List (Option Status × World η)
  | [] => []
  | (call, change) :: rest =>
    let (answer, c, w) := m.call call c (change w)
    (answer, w) :: m.answers c w rest

/-- Two answers that are the same, with worlds that match. -/
def AnswersMatch (S : η → θ → Prop) (a : Option Status × World η) (b : Option Status × World θ) :
    Prop :=
  a.1 = b.1 ∧ World.Match S a.2 b.2

/-- The same call, after changes that keep worlds matching. -/
def CallsMatch (S : η → θ → Prop) (a : Call × World.Change η) (b : Call × World.Change θ) : Prop :=
  a.1 = b.1 ∧ ∀ {w v}, World.Match S w v → World.Match S (a.2 w) (b.2 v)

variable {R : γ → δ → Prop} {S : η → θ → Prop} {m : Machine γ η} {k : Machine δ θ}

theorem Correspondence.call (s : m.Correspondence R S k) (call : Call) {c : γ} {d : δ} {w : World η}
    {v : World θ} (hcd : R c d) (hw : World.Match S w v) :
    (m.call call c w).1 = (k.call call d v).1 ∧
      R (m.call call c w).2.1 (k.call call d v).2.1 ∧
      World.Match S (m.call call c w).2.2 (k.call call d v).2.2 := by
  cases call with
  | execute now =>
    have htick := s.tick now hcd hw
    exact ⟨congrArg some htick.status, htick.next, htick.world⟩
  | reset =>
    obtain ⟨hnext, hhost⟩ := s.reset c d w.host v.host hcd hw.host
    exact ⟨rfl, hnext, ⟨hw.blackboard, hw.received, hw.events, hhost⟩⟩
  | cancel =>
    obtain ⟨hnext, hhost⟩ := s.cancel c d w.host v.host hcd hw.host
    exact ⟨rfl, hnext, ⟨hw.blackboard, hw.received, hw.events, hhost⟩⟩

theorem Correspondence.answers (s : m.Correspondence R S k)
    {calls : List (Call × World.Change η)} {calls' : List (Call × World.Change θ)}
    (hcalls : List.Forall₂ (CallsMatch S) calls calls') {c : γ} {d : δ} {w : World η}
    {v : World θ} (hcd : R c d) (hw : World.Match S w v) :
    List.Forall₂ (AnswersMatch S) (m.answers c w calls) (k.answers d v calls') := by
  induction hcalls generalizing c d w v with
  | nil => exact .nil
  | @cons a b calls calls' hab _ ih =>
    obtain ⟨call, change⟩ := a
    obtain ⟨_, change'⟩ := b
    obtain ⟨rfl, hchange⟩ := hab
    obtain ⟨hanswer, hnext, hworld⟩ := s.call call hcd (hchange hw)
    exact .cons ⟨hanswer, hworld⟩ (ih hnext hworld)

theorem Simulation.answers_eq {k : Machine δ η} (s : m.Simulation R k)
    (calls : List (Call × World.Change η)) {c : γ} {d : δ} (hcd : R c d) (w : World η) :
    m.answers c w calls = k.answers d w calls := by
  have hcalls : List.Forall₂ (CallsMatch Eq) calls calls := by
    refine List.forall₂_same.2 fun a _ => ⟨rfl, ?_⟩
    intro w v h
    exact World.match_eq_iff.2 (congrArg a.2 (World.match_eq_iff.1 h))
  have hanswers := s.correspondence.answers hcalls hcd (World.match_eq_iff.2 (Eq.refl w))
  apply List.forall₂_eq_eq_eq ▸ hanswers.imp ?_
  rintro ⟨answer, w⟩ ⟨_, v⟩ ⟨rfl, hw⟩
  exact Prod.ext rfl (World.match_eq_iff.1 hw)

end Machine

/-- What a tree answers to calls, and the worlds that it leaves. -/
def Node.answers {β : Type} [Behavior β η] (n : Node β) (w : World η)
    (calls : List (Call × World.Change η)) : List (Option Status × World η) :=
  machine.answers n w calls

end BehaviorTree
