import BehaviorTree.Proofs.Control.Correspondence

namespace BehaviorTree

/-!
# Notes beside the state of a host

To say what happens in which order during a tick, the host gets notes beside its own state.  They are
a ghost: what acts on the host's own state does not see them, and forgetting them gives back what
happens without them.

* `Noted` — a state of a host with notes beside it;
* `World.plain`, `World.withNotes` — a world without and with the notes;
* `Noted.lift`, `Noted.liftTick` — an action on the host's own state, which leaves the notes as they
  are;
* `Machine.notes_sweep` — what is noted when the same is done to every child.
-/

/-- The state of a host, and notes beside it, oldest first. -/
structure Noted (α η : Type) where
  host : η
  notes : List α

variable {α γ η : Type}

/-- The same state of the host, without the notes. -/
def Noted.Over (h : Noted α η) (h' : η) : Prop := h.host = h'

/-! ### Worlds with notes -/

namespace World

/-- The world without the notes. -/
def plain (w : World (Noted α η)) : World η := { w with host := w.host.host }

/-- The world with notes beside the state of its host. -/
def withNotes (notes : List α) (w : World η) : World (Noted α η) :=
  { w with host := ⟨w.host, notes⟩ }

/-- The notes. -/
def notes (w : World (Noted α η)) : List α := w.host.notes

/-- The world with one more note. -/
def note (a : α) (w : World (Noted α η)) : World (Noted α η) :=
  { w with host := { w.host with notes := w.host.notes ++ [a] } }

@[simp]
theorem plain_withNotes (notes : List α) (w : World η) : (w.withNotes notes).plain = w := rfl

@[simp]
theorem plain_note (a : α) (w : World (Noted α η)) : (w.note a).plain = w.plain := rfl

/-- A world matches the one that it is without its notes. -/
theorem match_over_iff {w : World (Noted α η)} {v : World η} :
    World.Match Noted.Over w v ↔ w.plain = v := by
  rw [← World.match_eq_iff]
  exact ⟨fun ⟨hblackboard, hreceived, hevents, hhost⟩ =>
      ⟨hblackboard, hreceived, hevents, hhost⟩,
    fun ⟨hblackboard, hreceived, hevents, hhost⟩ => ⟨hblackboard, hreceived, hevents, hhost⟩⟩

end World

/-! ### Actions beside the notes -/

namespace Noted

/-- What an action does to the host's own state, with the notes left as they are. -/
def lift (f : γ → η → γ × η) (c : γ) (h : Noted α η) : γ × Noted α η :=
  ((f c h.host).1, { h with host := (f c h.host).2 })

/-- A tick in the world without the notes, which are left as they are. -/
def liftTick (tick : γ → World η → Outcome γ η) (c : γ) (w : World (Noted α η)) :
    Outcome γ (Noted α η) :=
  let o := tick c w.plain
  ⟨o.status, o.next, o.world.withNotes w.notes⟩

@[simp]
theorem notes_lift (f : γ → η → γ × η) (c : γ) (h : Noted α η) :
    (lift f c h).2.notes = h.notes := rfl

end Noted

/-- A sweep that leaves a note for each child leaves these notes in the order of the children. -/
theorem Machine.notes_sweep {f : γ → Noted α η → γ × Noted α η} {note : γ → α}
    (hf : ∀ c h, (f c h).2.notes = h.notes ++ [note c]) (cs : List γ) (h : Noted α η) :
    (sweep f cs h).2.notes = h.notes ++ cs.map note := by
  rw [seen_sweep hf, List.map_eq_flatMap]

end BehaviorTree
