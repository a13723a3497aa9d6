import BehaviorTree.Proofs.Control.Correspondence

namespace BehaviorTree

/-!
# Machines that simulate each other

Children of two types are related by `R`, and two machines tick, reset and cancel related children
with the same answers and the same effect on the world, so that they stay related.  Then no control
can tell the children apart.  This is the correspondence of machines over one and the same host.

* `Outcome.Match` — two outcomes with one answer, one world and related results;
* `Machine.Simulation` — two machines that keep `R` and answer alike;
* `Control.tick_match` — over such machines every control ticks alike, and its progress is the same
  on both sides.
-/

variable {γ δ η : Type}

/-- Two outcomes with the same answer and the same world, and with related results. -/
structure Outcome.Match {σ τ : Type} (R : σ → τ → Prop) (o : Outcome σ η) (p : Outcome τ η) :
    Prop where
  status : o.status = p.status
  next : R o.next p.next
  world : o.world = p.world

theorem Outcome.match_iff {σ τ : Type} {R : σ → τ → Prop} {o : Outcome σ η} {p : Outcome τ η} :
    o.Match R p ↔ o.Corresponds R Eq p :=
  ⟨fun h => ⟨h.status, h.next, World.match_eq_iff.2 h.world⟩,
    fun h => ⟨h.status, h.next, World.match_eq_iff.1 h.world⟩⟩

namespace Machine

/-- Two actions on children and the host's state that keep `R` and change the host's state alike. -/
def Alike (R : γ → δ → Prop) (f : γ → η → γ × η) (g : δ → η → δ × η) : Prop :=
  ∀ c d h, R c d → R (f c h).1 (g d h).1 ∧ (f c h).2 = (g d h).2

/-- Two machines that do the same to children related by `R`, and keep them related. -/
structure Simulation (R : γ → δ → Prop) (m : Machine γ η) (k : Machine δ η) : Prop where
  tick : ∀ now c d w, R c d → (m.tick now c w).Match R (k.tick now d w)
  reset : Alike R m.reset k.reset
  cancel : Alike R m.cancel k.cancel

variable {R : γ → δ → Prop} {m : Machine γ η} {k : Machine δ η} {cs : List γ} {ds : List δ}

theorem Alike.paired {f : γ → η → γ × η} {g : δ → η → δ × η} (a : Alike R f g) :
    Paired R Eq f g := by
  rintro c d h _ hcd rfl
  exact a c d h hcd

theorem Simulation.correspondence (s : m.Simulation R k) : m.Correspondence R Eq k where
  tick now c d w v hcd hw := by
    obtain rfl := World.match_eq_iff.1 hw
    exact Outcome.match_iff.1 (s.tick now c d w hcd)
  reset := s.reset.paired
  cancel := s.cancel.paired

/-- A sweep with an action that is alike on the children at hand. -/
theorem sweep_alike {f : γ → η → γ × η} {g : δ → η → δ × η} (hcs : List.Forall₂ R cs ds)
    (hf : ∀ c ∈ cs, ∀ d h, R c d → R (f c h).1 (g d h).1 ∧ (f c h).2 = (g d h).2) (h : η) :
    List.Forall₂ R (sweep f cs h).1 (sweep g ds h).1 ∧ (sweep f cs h).2 = (sweep g ds h).2 := by
  apply sweep_paired hcs ?_ rfl
  rintro c hc d h _ hcd rfl
  exact hf c hc d h hcd

end Machine

variable {R : γ → δ → Prop} {m : Machine γ η} {k : Machine δ η} {cs : List γ} {ds : List δ}

/-- Over machines that simulate each other a control ticks alike: the same answer, the same world
    and the same progress, with children that are related again. -/
theorem Control.tick_match (s : m.Simulation R k) (name : String) (now : Moment)
    (control : Control) (hcs : List.Forall₂ R cs ds) (w : World η) :
    (control.tick m name now cs w).Match (Beside R) (control.tick k name now ds w) :=
  Outcome.match_iff.2
    (control.tick_corresponds s.correspondence name now hcs (World.match_eq_iff.2 rfl))

end BehaviorTree
