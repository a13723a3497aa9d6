import BehaviorTree.Proofs.Leaf.Settings
import BehaviorTree.Proofs.Node.Kept
import BehaviorTree.Runner

namespace BehaviorTree

/-!
# What a tree touches on the blackboard

A tree over the leaves of the library touches only what it declares: the keys of its writes, to which
it gives the values of its writes, and the history of records, to which it adds.

* `Blackboard.Framed` — the blackboard after is the one before, apart from some writes and from what
  is added to the history;
* `Builtin.tick_framed` — this is so after a tick of a leaf, with the writes that it declares;
* `Node.Touches` — the same in terms of the writes of a tree;
* `Node.touches_declared` — it is so after any calls to a tree, and after any run of it.
-/

variable {η : Type}

/-- A property value as it stands on the blackboard: a text as a text, a number as a real. -/
def PropertyValue.stored : PropertyValue → Value
  | .text s => .text s
  | .number x => .real x

/-- The keys under which reports look: those of the history and of the sink. -/
def reportKeys : List String := [historyKey.name, sinkKey.name]

namespace Blackboard

/-- What may be different on the second blackboard: what `writes` allows, and what is in the history. -/
structure Framed (writes : String → PropertyValue → Prop) (bb bb' : Blackboard) : Prop where
  /-- No key is removed. -/
  kept : ∀ key, bb.contains key = true → bb'.contains key = true
  other : ∀ key, key ∉ reportKeys →
    bb'.get? key = bb.get? key ∨ ∃ value, writes key value ∧ bb'.get? key = some value.stored
  reports : ∀ key ∈ reportKeys, (∀ value, ¬ writes key value) →
    (bb'.get? key).map Value.type = (bb.get? key).map Value.type

namespace Framed

variable {writes : String → PropertyValue → Prop} {bb bb' bb'' : Blackboard}

theorem refl (writes : String → PropertyValue → Prop) (bb : Blackboard) : Framed writes bb bb :=
  ⟨fun _ h => h, fun _ _ => .inl rfl, fun _ _ _ => rfl⟩

theorem trans (h : Framed writes bb bb') (h' : Framed writes bb' bb'') : Framed writes bb bb'' where
  kept key hkey := h'.kept key (h.kept key hkey)
  other key hkey := by
    rcases h'.other key hkey with heq | hwritten
    · rw [heq]
      exact h.other key hkey
    · exact .inr hwritten
  reports key hkey hnone := (h'.reports key hkey hnone).trans (h.reports key hkey hnone)

/-- A write that is allowed. -/
theorem insert {key : String} {value : PropertyValue} (h : writes key value) (bb : Blackboard) :
    Framed writes bb (bb.insert key value.stored) where
  kept k hk := by
    rw [Dict.contains, Dict.get?_insert]
    split
    · rfl
    · exact hk
  other k _ := by
    rw [Dict.get?_insert]
    split
    · next heq => exact .inr ⟨value, heq ▸ h, rfl⟩
    · exact .inl rfl
  reports k _ hnone := by
    rw [Dict.get?_insert, if_neg]
    rintro rfl
    exact hnone value h

end Framed

/-- A record in the history leaves a history in its place. -/
theorem remember_framed (writes : String → PropertyValue → Prop) (w : World η) (r : Log.Record) :
    Framed writes w.blackboard (w.remember r).blackboard := by
  unfold World.remember
  split
  · next h hload =>
    have hhistory : w.blackboard.get? historyKey.name = some (.history h) := load?_eq_some_iff.1 hload
    refine ⟨fun k hk => ?_, fun k hk => ?_, fun k _ _ => ?_⟩
    · rw [World.put, put, Dict.contains, Dict.get?_insert]
      split
      · rfl
      · exact hk
    · have hne : k ≠ historyKey.name := by
        rintro rfl
        exact hk List.mem_cons_self
      rw [World.put, put, Dict.get?_insert_of_ne _ hne]
      exact .inl rfl
    · rw [World.put, put, Dict.get?_insert]
      split
      · next heq => rw [heq, hhistory]; rfl
      · rfl
  · exact .refl writes _

/-- So blackboards that are framed are a relation between worlds that allows reports. -/
theorem tolerant_framed (writes : String → PropertyValue → Prop) :
    World.Tolerant fun w v : World η => Framed writes w.blackboard v.blackboard where
  refl w := .refl writes w.blackboard
  trans h h' := h.trans h'
  emit w r := by
    rw [World.emit, World.blackboard_deliver]
    exact remember_framed writes w r
  host w _ := .refl writes w.blackboard

end Blackboard

open Blackboard (Framed)

namespace Builtin

/-- Reading answers without a change. -/
theorem blackboard_of_read {α : Type} [Storable α] {w v : World η} {key : String} {a : Option α}
    (h : w.read α key = (a, v)) : v.blackboard = w.blackboard :=
  (congrArg (fun p => p.2.blackboard) h).symm

theorem blackboard_matching (w : World η) (key : String) (expected : PropertyValue) :
    (matching w key expected).2.blackboard = w.blackboard := by
  unfold matching
  split
  · next h => exact blackboard_of_read h
  next h₁ =>
  rw [← blackboard_of_read h₁]
  split
  · next h => exact blackboard_of_read h
  next h₂ =>
  rw [← blackboard_of_read h₂]
  split
  · next h => exact blackboard_of_read h
  next h₃ =>
  rw [← blackboard_of_read h₃]
  split
  · next h => exact blackboard_of_read h
  · next h => exact blackboard_of_read h

/-- The leaf writes only what `writes` allows. -/
def Declares (writes : String → PropertyValue → Prop) (b : Builtin) : Prop :=
  ∀ key value, b.settings = .setValue (some key) (some value) → writes key value

/-- A leaf writes what it declares, or reports. -/
theorem tick_framed {writes : String → PropertyValue → Prop} {b : Builtin} (hb : b.Declares writes)
    (now : Moment) (w : World η) :
    Framed writes w.blackboard (b.tick now w).world.blackboard := by
  have hreport := (Blackboard.tolerant_framed writes).emit w
  cases b with
  | constant status => exact .refl writes _
  | wait duration startedAt =>
    rw [tick]
    split <;> exact .refl writes _
  | setValue key value =>
    cases key with
    | none => exact hreport incompleteWrite
    | some key =>
      cases value with
      | none => exact hreport incompleteWrite
      | some value => cases value <;> exact .insert (hb key _ rfl) w.blackboard
  | log message level => exact hreport (reported message level)
  | hasValue key => exact .refl writes _
  | valueEquals key value =>
    cases key with
    | none => exact .refl writes _
    | some key =>
      cases value with
      | none => exact .refl writes _
      | some value =>
        show Framed writes w.blackboard (matching w key value).2.blackboard
        rw [blackboard_matching]
        exact .refl writes _

theorem leavesKeep_framed (writes : String → PropertyValue → Prop) :
    Node.LeavesKeep η (Declares writes) fun w v : World η =>
      Framed writes w.blackboard v.blackboard where
  tick now _ b w hb := by
    refine ⟨?_, tick_framed hb now w⟩
    show Declares writes (b.tick now w).next
    rwa [Declares, settings_tick]
  reset {b} _ hb := by
    show Declares writes b.restart
    rwa [Declares, settings_restart]
  cancel {b} _ hb := by
    show Declares writes b.restart
    rwa [Declares, settings_restart]

end Builtin

namespace Node

/-- Some leaf of the tree writes under a key. -/
def Names (n : Node Builtin) (key : String) : Prop :=
  ∃ value, Builtin.setValue (some key) value ∈ n.leaves

/-- Some leaf of the tree writes a value under a key. -/
def Writes (n : Node Builtin) (key : String) (value : PropertyValue) : Prop :=
  Builtin.setValue (some key) (some value) ∈ n.leaves

/-- The tree with the blackboard before touched only what it declares, on the way to the blackboard
    after. -/
structure Touches (n : Node Builtin) (before after : Blackboard) : Prop where
  /-- Every key that was there is there. -/
  kept : ∀ key, before.contains key = true → after.contains key = true
  /-- A key that no write names has its value still. -/
  unnamed : ∀ key, ¬ n.Names key → key ∉ reportKeys → after.get? key = before.get? key
  /-- A key that a write names has its value still, or the value of one of the writes that name it. -/
  named : ∀ key, n.Names key → key ∉ reportKeys → after.get? key = before.get? key ∨
    ∃ value, n.Writes key value ∧ after.get? key = some value.stored
  /-- What stands under the two keys of reports keeps its type, unless a write names the key. -/
  reports : ∀ key ∈ reportKeys, ¬ n.Names key →
    (after.get? key).map Value.type = (before.get? key).map Value.type

theorem declares_writes (n : Node Builtin) : ∀ b ∈ n.leaves, b.Declares n.Writes := by
  intro b hb key value hsettings
  obtain rfl : b = .setValue (some key) (some value) := by
    cases b <;> simp_all [Builtin.settings]
  exact hb

theorem touches_of_framed {n : Node Builtin} {before after : Blackboard}
    (h : Framed n.Writes before after) : n.Touches before after := by
  have hwrites : ∀ {key}, ¬ n.Names key → ∀ value, ¬ n.Writes key value :=
    fun hnames value hwrites => hnames ⟨some value, hwrites⟩
  refine ⟨h.kept, fun key hnames hkey => ?_, fun key _ hkey => h.other key hkey,
    fun key hkey hnames => h.reports key hkey (hwrites hnames)⟩
  rcases h.other key hkey with heq | ⟨value, hwritten, -⟩
  · exact heq
  · exact absurd hwritten (hwrites hnames value)

theorem machine_framed (writes : String → PropertyValue → Prop) :
    (machine : Machine (Node Builtin) η).Keeps (fun n => ∀ b ∈ n.leaves, b.Declares writes)
      fun w v => Framed writes w.blackboard v.blackboard :=
  machine_keeps (Builtin.leavesKeep_framed writes) (Blackboard.tolerant_framed writes)

end Node

namespace Runner

/-- What a host does with a runner. -/
inductive Move where
  | tick (reading : Float)
  | reset
  /-- Tells the tree that its run is abandoned, and no more. -/
  | cancel

/-- The runner and the world after a move. -/
def move {β : Type} [Behavior β η] (r : Runner β) (w : World η) : Move → Runner β × World η
  | .tick reading => r.tick reading w
  | .reset => w.atHost r.reset
  | .cancel =>
    let (root, w) := w.atHost r.root.cancel
    ({ r with root }, w)

/-- The runner and the world after moves, one after the other. -/
def moveAll {β : Type} [Behavior β η] (r : Runner β) (w : World η) :
    List Move → Runner β × World η
  | [] => (r, w)
  | m :: moves =>
    let (r, w) := r.move w m
    r.moveAll w moves

theorem move_framed {writes : String → PropertyValue → Prop} {r : Runner Builtin}
    (hr : ∀ b ∈ r.root.leaves, b.Declares writes) (w : World η) (m : Move) :
    (∀ b ∈ (r.move w m).1.root.leaves, b.Declares writes) ∧
      Framed writes w.blackboard (r.move w m).2.blackboard := by
  have k := Node.machine_framed (η := η) writes
  cases m with
  | tick reading =>
    obtain ⟨hnext, hworld⟩ := k.tick ⟨r.ticks, reading⟩ w hr
    show (∀ b ∈ (r.tick reading w).1.root.leaves, b.Declares writes) ∧
      Framed writes w.blackboard (r.tick reading w).2.blackboard
    unfold tick
    dsimp only
    -- a finished run is told and reset, neither of which the blackboard shows
    split
    · exact ⟨k.reset _ hnext, hworld⟩
    · exact ⟨hnext, hworld⟩
  | reset => exact ⟨k.reset _ (k.cancel w.host hr), .refl writes _⟩
  | cancel => exact ⟨k.cancel w.host hr, .refl writes _⟩

theorem moveAll_framed {writes : String → PropertyValue → Prop} {r : Runner Builtin}
    (hr : ∀ b ∈ r.root.leaves, b.Declares writes) (w : World η) (moves : List Move) :
    Framed writes w.blackboard (r.moveAll w moves).2.blackboard := by
  induction moves generalizing r w with
  | nil => exact .refl writes _
  | cons m moves ih =>
    obtain ⟨hnext, hworld⟩ := move_framed hr w m
    exact hworld.trans (ih hnext _)

end Runner

/-- A tree of the library touches only what it declares, whatever state it is in and whatever the
    blackboard holds: after any ticks, resets and cancellations of the tree, and after any run of a
    runner of it.  No key is removed, keys that are not named keep their values, named ones get the
    values of the writes that name them or keep what they have, and reports change no type. -/
theorem Node.touches_declared :
    (∀ (n : Node Builtin) (w : World η) (calls : List Call),
      n.Touches w.blackboard (machine.callAll n w calls).2.blackboard) ∧
    ∀ (r : Runner Builtin) (w : World η) (moves : List Runner.Move),
      r.root.Touches w.blackboard (r.moveAll w moves).2.blackboard := by
  constructor
  · intro n w calls
    exact touches_of_framed ((machine_framed n.Writes).callAll
      (Blackboard.tolerant_framed n.Writes) calls w n.declares_writes).2
  · intro r w moves
    exact touches_of_framed (Runner.moveAll_framed r.root.declares_writes w moves)

end BehaviorTree
