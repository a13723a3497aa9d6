import BehaviorTree.Proofs.Control.Noted
import BehaviorTree.Proofs.Node.Calls
import BehaviorTree.Proofs.Node.View

namespace BehaviorTree

/-!
# What a node does to its children, call after call

A node gets calls, answers the ticks among them, and executes, resets and cancels its children.  What
it does is noted beside the state of the host, which changes nothing about it.

* `Deed`, `Machine.noting` — what is done to a child, and children over which it is noted;
* `Machine.notes_tickAll`, `Machine.notes_resetAll` — what is noted of all children at once;
* `Control.call`, `Control.deeds` — what an inner node makes of a call, and what it does meanwhile;
* `Control.call_noting` — noting does not change what happens;
* `Node.call_inner` — these are the calls to a tree;
* `Control.beats`, `currentRun` — a sequence of calls, and those of the run that goes on;
* `Control.beats_law_of`, `Control.beats_law` — a law for one call is a law for a sequence of calls.
-/

variable {γ η : Type}

/-- What a node does to one of its children, which are numbered from zero. -/
inductive Deed where
  | executed (child : Nat) (answer : Status)
  | reset (child : Nat)
  | cancelled (child : Nat)
deriving DecidableEq, Repr

/-- Children with numbers, as good as the children themselves.  Whatever is done to one is noted. -/
def Machine.noting (m : Machine γ η) : Machine (Nat × γ) (Noted Deed η) where
  tick now c w :=
    let o := m.tick now c.2 w.plain
    ⟨o.status, (c.1, o.next), (o.world.withNotes w.notes).note (.executed c.1 o.status)⟩
  reset c h :=
    let (d, host) := m.reset c.2 h.host
    ((c.1, d), ⟨host, h.notes ++ [.reset c.1]⟩)
  cancel c h :=
    let (d, host) := m.cancel c.2 h.host
    ((c.1, d), ⟨host, h.notes ++ [.cancelled c.1]⟩)

/-- The children with their numbers. -/
def numbered (cs : List γ) : List (Nat × γ) := cs.zipIdx.map Prod.swap

/-- A child with a number, and the child. -/
def Carries (c : Nat × γ) (d : γ) : Prop := c.2 = d

theorem numbered_carries (cs : List γ) : List.Forall₂ Carries (numbered cs) cs := by
  have hall : ∀ i, List.Forall₂ Carries ((cs.zipIdx i).map Prod.swap) cs := by
    induction cs with
    | nil => exact fun _ => .nil
    | cons c cs ih => exact fun i => .cons rfl (ih (i + 1))
  exact hall 0

theorem Machine.noting_correspondence (m : Machine γ η) :
    m.noting.Correspondence Carries Noted.Over m where
  tick now {c d w v} hcd hw := by
    obtain rfl : c.2 = d := hcd
    obtain rfl := World.match_over_iff.1 hw
    exact ⟨rfl, rfl, World.match_over_iff.2 rfl⟩
  reset c d h h' hcd hh := by
    obtain rfl : c.2 = d := hcd
    obtain rfl : h.host = h' := hh
    exact ⟨rfl, rfl⟩
  cancel c d h h' hcd hh := by
    obtain rfl : c.2 = d := hcd
    obtain rfl : h.host = h' := hh
    exact ⟨rfl, rfl⟩

/-! ### All children at once -/

@[simp]
theorem length_numbered (cs : List γ) : (numbered cs).length = cs.length := by
  rw [numbered, List.length_map, List.length_zipIdx]

theorem numbers_numbered (cs : List γ) : (numbered cs).map Prod.fst = List.range cs.length := by
  simp only [numbered, List.map_map, List.range_eq_range', ← List.zipIdx_map_snd 0 cs]
  rfl

namespace Machine

variable {m : Machine γ η} {cs ds : List (Nat × γ)}

/-- Nothing that is done to children changes their numbers. -/
theorem ReachesAll.numbers_eq (h : m.noting.ReachesAll cs ds) :
    ds.map Prod.fst = cs.map Prod.fst := by
  apply h.map_eq
  intro c d hcd
  exact hcd.preserves (fun _ _ _ => rfl) (fun _ _ => rfl) (fun _ _ => rfl)

/-- A reset of all children is noted once for each of them, in their order. -/
theorem notes_resetAll (m : Machine γ η) (cs : List (Nat × γ)) (w : World (Noted Deed η)) :
    (m.noting.resetAll cs w).2.notes = w.notes ++ (cs.map Prod.fst).map .reset := by
  rw [List.map_map]
  exact notes_sweep (fun _ _ => rfl) cs w.host

end Machine

/-! ### Calls to an inner node -/

namespace Control

/-- What an inner node called `name` makes of a call: its answer to a tick, its control and children
    afterwards, and the world. -/
def call (m : Machine γ η) (name : String) (control : Control) (cs : List γ) (w : World η) :
    Call → Option Status × (Control × List γ) × World η
  | .execute now =>
    let o := control.tick m name now cs w
    (some o.status, o.next, o.world)
  | .reset =>
    let (cs, w) := m.resetAll cs w
    (none, (control.restart, cs), w)
  | .cancel =>
    let (cs, w) := m.cancelAll cs w
    (none, (control.abandon, cs), w)

/-- What an inner node does to its children during a call. -/
def deeds (m : Machine γ η) (name : String) (control : Control) (cs : List γ) (w : World η)
    (call : Call) : List Deed :=
  (control.call m.noting name (numbered cs) (w.withNotes []) call).2.2.notes

/-- Noting what is done changes nothing about it. -/
theorem call_noting (m : Machine γ η) (name : String) (control : Control) (cs : List γ)
    (w : World η) (notes : List Deed) (call : Call) :
    let noted := control.call m.noting name (numbered cs) (w.withNotes notes) call
    let r := control.call m name cs w call
    noted.1 = r.1 ∧ Beside Carries noted.2.1 r.2.1 ∧ noted.2.2.plain = r.2.2 := by
  have hworld : World.Match Noted.Over (w.withNotes notes) w := World.match_over_iff.2 rfl
  cases call with
  | execute now =>
    have htick := control.tick_corresponds m.noting_correspondence name now (numbered_carries cs)
      hworld
    exact ⟨congrArg some htick.status, htick.next, World.match_over_iff.1 htick.world⟩
  | reset =>
    obtain ⟨hcs, hw⟩ := m.noting_correspondence.resetAll (numbered_carries cs) hworld
    exact ⟨rfl, ⟨rfl, hcs⟩, World.match_over_iff.1 hw⟩
  | cancel =>
    obtain ⟨hcs, hw⟩ := m.noting_correspondence.cancelAll (numbered_carries cs) hworld
    exact ⟨rfl, ⟨rfl, hcs⟩, World.match_over_iff.1 hw⟩

end Control

/-- A call to a tree is a call to its root, over the children as trees of their own. -/
theorem Node.call_inner {β : Type} [Behavior β η] (info : NodeInfo) (control : Control)
    (cs : List (Node β)) (w : World η) (call : Call) :
    machine.call call (.inner info control cs) w =
      let r := control.call machine info.name cs w call
      (r.1, .inner info r.2.1.1 r.2.1.2, r.2.2) := by
  cases call with
  | execute now =>
    simp only [Machine.call, machine, Control.call]
    rw [execute_inner]
    rfl
  | reset =>
    simp only [Machine.call, machine, Control.call, World.atHost, Machine.resetAll, reset,
      broadcast_inner]
  | cancel =>
    simp only [Machine.call, machine, Control.call, World.atHost, Machine.cancelAll, cancel,
      broadcast_inner]

/-! ### Sequences of calls -/

/-- One call to a node: what it does to its children, what it answers, and its control afterwards. -/
structure Beat where
  call : Call
  deeds : List Deed
  answer : Option Status
  control : Control

namespace Beat

/-- What the first child that is executed answers. -/
def childAnswer (b : Beat) : Option Status :=
  b.deeds.findSome? fun
    | .executed _ answer => some answer
    | _ => none

/-- The reading of the clock that comes with a tick. -/
def reading (b : Beat) : Option Float :=
  match b.call with
  | .execute now => some now.now
  | _ => none

/-- The call ends the run of the node: the answer is final, or it is a reset or a cancel, which has no
    answer. -/
def ends (b : Beat) : Bool := b.answer.all Status.isTerminal

theorem ends_of_ne_running {b : Beat} (h : b.answer ≠ some .running) : b.ends = true := by
  unfold ends
  cases hanswer : b.answer with
  | none => rfl
  | some answer =>
    cases answer with
    | running => exact absurd hanswer h
    | success | failure => rfl

end Beat

/-- The calls of the run that goes on after `past`.  The latest call is the first of the list. -/
def currentRun (past : List Beat) : List Beat := past.takeWhile (!·.ends)

theorem currentRun_of_ends {b : Beat} (h : b.ends = true) (past : List Beat) :
    currentRun (b :: past) = [] := by
  simp [currentRun, h]

theorem currentRun_of_not_ends {b : Beat} (h : b.ends = false) (past : List Beat) :
    currentRun (b :: past) = b :: currentRun past := by
  simp [currentRun, h]

namespace Control

/-- One call to an inner node. -/
def beat (m : Machine γ η) (name : String) (control : Control) (cs : List γ) (w : World η)
    (call : Call) : Beat :=
  let r := control.call m name cs w call
  ⟨call, control.deeds m name cs w call, r.1, r.2.1.1⟩

/-- The calls to a node, one after the other.  Before each of them the host changes the world as it
    likes. -/
def beats (m : Machine γ η) (name : String) (control : Control) (cs : List γ) (w : World η) :
    List (Call × World.Change η) → List Beat
  | [] => []
  | (call, change) :: calls =>
    let r := control.call m name cs (change w) call
    control.beat m name cs (change w) call :: r.2.1.1.beats m name r.2.1.2 r.2.2 calls

theorem map_call_beats (m : Machine γ η) (name : String) (control : Control) (cs : List γ)
    (w : World η) (calls : List (Call × World.Change η)) :
    (control.beats m name cs w calls).map Beat.call = calls.map Prod.fst := by
  induction calls generalizing control cs w with
  | nil => rfl
  | cons call calls ih => exact congrArg _ (ih _ _ _)

/-- A law about a call and the calls before it, the latest first, holds in every sequence of calls of
    some kinds.  For that the node keeps a relation between these calls and what it has become. -/
theorem beats_law_of {m : Machine γ η} {name : String} (allowed : Call → Prop)
    (law : List Beat → Beat → Prop) (inv : List Beat → Control → List γ → Prop)
    (hstep : ∀ {past control cs}, inv past control cs → ∀ w {call}, allowed call →
      let b := control.beat m name cs w call
      law past b ∧ inv (b :: past) b.control (control.call m name cs w call).2.1.2)
    {calls : List (Call × World.Change η)} (hcalls : ∀ call ∈ calls, allowed call.1)
    {past : List Beat} {control : Control} {cs : List γ} (h : inv past control cs) (w : World η)
    {before after : List Beat} {b : Beat}
    (hb : control.beats m name cs w calls = before ++ b :: after) :
    law (before.reverse ++ past) b := by
  induction calls generalizing past control cs w before with
  | nil => simp [beats] at hb
  | cons call calls ih =>
    obtain ⟨call, change⟩ := call
    obtain ⟨hcall, hcalls⟩ := List.forall_mem_cons.1 hcalls
    obtain ⟨hlaw, hnext⟩ := hstep h (change w) hcall
    cases before with
    | nil =>
      obtain ⟨rfl, -⟩ := List.cons.inj hb
      exact hlaw
    | cons first before =>
      obtain ⟨rfl, htail⟩ := List.cons.inj hb
      have hrest := ih hcalls hnext _ htail
      rwa [List.reverse_cons, List.append_assoc]

/-- Such a law in sequences of calls of all kinds. -/
theorem beats_law {m : Machine γ η} {name : String} (law : List Beat → Beat → Prop)
    (inv : List Beat → Control → List γ → Prop)
    (hstep : ∀ {past control cs}, inv past control cs → ∀ w call,
      let b := control.beat m name cs w call
      law past b ∧ inv (b :: past) b.control (control.call m name cs w call).2.1.2)
    (calls : List (Call × World.Change η)) {past : List Beat} {control : Control} {cs : List γ}
    (h : inv past control cs) (w : World η) {before after : List Beat} {b : Beat}
    (hb : control.beats m name cs w calls = before ++ b :: after) :
    law (before.reverse ++ past) b :=
  beats_law_of (fun _ => True) law inv (fun h w call _ => hstep h w call) (fun _ _ => trivial) h w hb

end Control

end BehaviorTree
