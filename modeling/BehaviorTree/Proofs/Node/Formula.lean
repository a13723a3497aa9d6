import BehaviorTree.Proofs.Control.Walk
import BehaviorTree.Proofs.Leaf.Effect
import BehaviorTree.Proofs.Node.Calls
import BehaviorTree.Proofs.Node.Restart
import Mathlib.Data.Bool.Count
import Mathlib.Data.List.Count

namespace BehaviorTree

/-!
# Trees without waiting are formulas

A tree in which no leaf waits and no decorator counts, delays or limits its child is a formula over
the blackboard.  One tick evaluates it from left to right, and what a leaf writes or reports is there
for the leaves after it.

* `Formula.eval` — the value of a formula, and the world after its evaluation, by the effects of
  `Effect`;
* `Node.Waitless` — the trees that are formulas, and `Node.formula`, the formula that such a tree is;
* `Node.evaluates_formula` — a tick of the tree evaluates its formula, and leaves the tree as it was;
* `Node.waitless_execute` — so does every later tick.
-/

variable {η : Type}

/-! ### Formulas -/

/-- A formula over the blackboard.  Its evaluation can write and report. -/
inductive Formula where
  | constant (b : Bool)
  /-- Writes `value` under `key`. -/
  | store (key : Option String) (value : Option PropertyValue)
  /-- Reports a message. -/
  | report (message : String) (level : Log.Level)
  /-- There is something under `key`. -/
  | present (key : Option String)
  /-- What is under `key` equals `value`. -/
  | equal (key : Option String) (value : Option PropertyValue)
  /-- All of them, up to the first that is false. -/
  | all (fs : List Formula)
  /-- Any of them, up to the first that is true. -/
  | any (fs : List Formula)
  | not (f : Formula)
  /-- As many of them as the threshold says. -/
  | enough (threshold : Option Nat) (fs : List Formula)

namespace Formula

/-- How many of so many formulas are enough: the threshold, or all of them without one, but at least
    one and at most all. -/
def needed (threshold : Option Nat) (count : Nat) : Nat :=
  min (max (threshold.getD count) 1) count

mutual

/-- The value of a formula, and the world after its evaluation.  A write without a key or a value is
    false, and a record tells of it. -/
def eval : Formula → World η → Bool × World η
  | .constant b, w => (b, w)
  | .store (some key) (some value), w => (true, Effect.write key value w)
  | .store _ _, w => (false, Effect.send
      { level := .error, category := "bt.leaf", node := none, line := none,
        message := "SetValue needs both 'key' and 'value'" } w)
  | .report message level, w => (true, Effect.send
      { level, category := "bt.leaf.log", node := none, line := none, message } w)
  | .present none, w => (false, w)
  | .present (some key), w => ((w.blackboard.get? key).isSome, w)
  | .equal (some key) (some value), w => Effect.compare key value w
  | .equal _ _, w => (false, w)
  | .all fs, w => evalAll fs w
  | .any fs, w => evalAny fs w
  | .not f, w => ((f.eval w).1.not, (f.eval w).2)
  | .enough threshold fs, w =>
    let (bs, w) := evalEach fs w
    (decide (needed threshold bs.length ≤ bs.count true), w)

/-- Whether all formulas are true; those behind a false one are not evaluated. -/
def evalAll : List Formula → World η → Bool × World η
  | [], w => (true, w)
  | f :: fs, w =>
    match f.eval w with
    | (true, w) => evalAll fs w
    | (false, w) => (false, w)

/-- Whether any formula is true; those behind a true one are not evaluated. -/
def evalAny : List Formula → World η → Bool × World η
  | [], w => (false, w)
  | f :: fs, w =>
    match f.eval w with
    | (true, w) => (true, w)
    | (false, w) => evalAny fs w

/-- The values of all formulas. -/
def evalEach : List Formula → World η → List Bool × World η
  | [], w => ([], w)
  | f :: fs, w =>
    let (b, w) := f.eval w
    let (bs, w) := evalEach fs w
    (b :: bs, w)

end

/-- The values of a formula in worlds that the host changes in between as it likes. -/
def evals (f : Formula) (w : World η) : List (World η → World η) → List (Bool × World η)
  | [] => []
  | change :: rest => f.eval (change w) :: f.evals (f.eval (change w)).2 rest

/-- What conjunction and disjunction have in common: they go on after one truth value, and stop at the
    first formula that has the other one. -/
structure ShortCircuits (goOn : Bool) (ev : List Formula → World η → Bool × World η) : Prop where
  nil : ∀ w, ev [] w = (goOn, w)
  passed : ∀ {f : Formula} {w : World η}, (f.eval w).1 = goOn →
    ∀ fs, ev (f :: fs) w = ev fs (f.eval w).2
  stopped : ∀ {f : Formula} {w : World η}, (f.eval w).1 ≠ goOn → ∀ fs, ev (f :: fs) w = f.eval w

theorem eval_eq {f : Formula} {w : World η} {b : Bool} (h : (f.eval w).1 = b) :
    f.eval w = (b, (f.eval w).2) :=
  Prod.ext h rfl

theorem shortCircuits_evalAll : ShortCircuits (η := η) true evalAll where
  nil w := by rw [evalAll]
  passed h fs := by rw [evalAll, eval_eq h]
  stopped h fs := by rw [evalAll, eval_eq (Bool.eq_false_of_not_eq_true h)]

theorem shortCircuits_evalAny : ShortCircuits (η := η) false evalAny where
  nil w := by rw [evalAny]
  passed h fs := by rw [evalAny, eval_eq h]
  stopped h fs := by rw [evalAny, eval_eq (Bool.eq_true_of_not_eq_false h)]

theorem length_evalEach (fs : List Formula) (w : World η) :
    (evalEach fs w).1.length = fs.length := by
  induction fs generalizing w with
  | nil => simp only [evalEach, List.length_nil]
  | cons f fs ih => simp only [evalEach, List.length_cons, ih]

end Formula

/-! ### Truth values as answers -/

theorem Status.ofBool_ne_running (b : Bool) : ofBool b ≠ .running := by
  cases b <;> simp [ofBool]

theorem Status.ofBool_injective : Function.Injective ofBool := by
  intro b b' h
  revert b b'
  decide

/-! ### Trees as formulas -/

/-- The leaf never runs. -/
def Builtin.Immediate : Builtin → Prop
  | .constant status => status ≠ .running
  | .wait .. => False
  | _ => True

/-- The formula that an immediate leaf is; any other leaf stands for a false one. -/
def Builtin.formula : Builtin → Formula
  | .constant status => .constant (status = .success)
  | .wait .. => .constant false
  | .setValue key value => .store key value
  | .log message level => .report message level
  | .hasValue key => .present key
  | .valueEquals key value => .equal key value

/-- A node over that many children never runs unless one of them does. -/
def Control.Immediate : Control → Nat → Prop
  | .sequence _, _ | .selector _, _ | .parallel _, _ => True
  | .inverter, children => children ≠ 0
  | _, _ => False

/-- The formula that an immediate control makes of those of its children; any other control stands for
    a false one. -/
def Control.formula : Control → List Formula → Formula
  | .sequence _, fs => .all fs
  | .selector _, fs => .any fs
  | .parallel settings, fs => .enough settings.success fs
  | .inverter, f :: _ => .not f
  | _, _ => .constant false

namespace Node

/-- No node of the tree ever runs. -/
inductive Waitless : Node Builtin → Prop
  | leaf {info : NodeInfo} {kind : LeafKind} {b : Builtin} : b.Immediate → Waitless (leaf info kind b)
  | inner {info : NodeInfo} {control : Control} {cs : List (Node Builtin)} :
    control.Immediate cs.length → (∀ c ∈ cs, Waitless c) → Waitless (inner info control cs)

@[simp]
theorem waitless_leaf {info : NodeInfo} {kind : LeafKind} {b : Builtin} :
    (leaf info kind b).Waitless ↔ b.Immediate :=
  ⟨fun | .leaf hb => hb, .leaf⟩

@[simp]
theorem waitless_inner {info : NodeInfo} {control : Control} {cs : List (Node Builtin)} :
    (inner info control cs).Waitless ↔ control.Immediate cs.length ∧ ∀ c ∈ cs, c.Waitless :=
  ⟨fun | .inner hcontrol hcs => ⟨hcontrol, hcs⟩, fun h => .inner h.1 h.2⟩

mutual

/-- The formula that a waitless tree is. -/
def formula : Node Builtin → Formula
  | .leaf _ _ b => b.formula
  | .inner _ control cs => control.formula (formulas cs)

/-- The formulas that waitless trees are. -/
def formulas : List (Node Builtin) → List Formula
  | [] => []
  | c :: cs => c.formula :: formulas cs

end

theorem formulas_eq_map (cs : List (Node Builtin)) : formulas cs = cs.map formula := by
  induction cs with
  | nil => simp [formulas]
  | cons c cs ih => simp [formulas, ih]

/-- A tick of the tree answers what the evaluation of the formula gives and leaves the world that it
    leaves; and the tree is what it was. -/
def Evaluates (η : Type) (n : Node Builtin) (f : Formula) : Prop :=
  ∀ now (w : World η), n.execute now w = ⟨.ofBool (f.eval w).1, n, (f.eval w).2⟩

theorem evaluates_leaf {info : NodeInfo} {kind : LeafKind} {b : Builtin} (h : b.Immediate) :
    Evaluates η (leaf info kind b) b.formula := by
  intro now w
  rw [execute_leaf]
  show (b.tick now w).map (leaf info kind) = _
  cases b with
  | constant status =>
    cases status with
    | running => exact absurd rfl h
    | success => rfl
    | failure => rfl
  | wait duration startedAt => exact h.elim
  | setValue key value =>
    cases key with
    | none =>
      rw [Builtin.formula, Formula.eval, ← Effect.emit_eq_send]
      · rfl
      · exact fun _ _ h => nomatch h
    | some key =>
      cases value with
      | none =>
        rw [Builtin.formula, Formula.eval, ← Effect.emit_eq_send]
        · rfl
        · exact fun _ _ _ h => nomatch h
      | some value =>
        rw [Builtin.formula, Formula.eval, ← Effect.storeProperty_eq]
        rfl
  | log message level =>
    rw [Builtin.formula, Formula.eval, ← Effect.emit_eq_send]
    rfl
  | hasValue key => cases key <;> rfl
  | valueEquals key value =>
    cases key with
    | none => rfl
    | some key =>
      cases value with
      | none => rfl
      | some value =>
        rw [Builtin.formula, Formula.eval, ← Effect.matching_eq_compare]
        rfl

/-! ### Children one after the other -/

variable {cs : List (Node Builtin)} {fs : List Formula}

/-- A walk that goes on after one truth value evaluates formulas that go on after it. -/
theorem walk_values {goOn : Bool} {ev : List Formula → World η → Bool × World η}
    (hev : Formula.ShortCircuits goOn ev) (hcs : List.Forall₂ (Evaluates η) cs fs) (now : Moment)
    (w : World η) :
    ∃ place, Ordered.walk machine (.ofBool goOn) now 0 cs w =
      ⟨.ofBool (ev fs w).1, (place, cs), (ev fs w).2⟩ := by
  induction hcs generalizing w with
  | nil => exact ⟨0, by rw [Ordered.walk, hev.nil]⟩
  | @cons c f cs fs hc _ ih =>
    have htick : machine.tick now c w = ⟨.ofBool (f.eval w).1, c, (f.eval w).2⟩ := hc now w
    by_cases hvalue : (f.eval w).1 = goOn
    · obtain ⟨place, hrest⟩ := ih (f.eval w).2
      refine ⟨1 + place, ?_⟩
      rw [Ordered.walk_cons_of_passed (by rw [htick, hvalue]), htick, hrest, hev.passed hvalue]
      rfl
    · have hstop : (machine.tick now c w).status ≠ .ofBool goOn := by
        rw [htick]
        exact fun h => hvalue (Status.ofBool_injective h)
      refine ⟨0, ?_⟩
      rw [Ordered.walk_cons_of_stopped hstop, htick, hev.stopped hvalue]
      rfl

/-- A walk over children that do not run comes to its end, and the reset after it leaves the cursor at
    the first child and the children as they were. -/
theorem evaluates_composite {control : Nat → Control} {goOn : Bool} {f : Formula}
    {ev : List Formula → World η → Bool × World η} (hw : Control.Walks control (.ofBool goOn))
    (hev : Formula.ShortCircuits goOn ev) (hf : ∀ w : World η, f.eval w = ev fs w)
    (info : NodeInfo) (hcs : List.Forall₂ (Evaluates η) cs fs) (hreset : cs.map restarted = cs) :
    Evaluates η (inner info (control 0) cs) f := by
  intro now w
  obtain ⟨place, hwalk⟩ := walk_values hev hcs now w
  rw [execute_inner, hw.tick, Ordered.tick, hwalk, if_neg (Status.ofBool_ne_running _), resetAll_machine,
    hreset, hf]
  rfl

theorem evaluates_inverter (info : NodeInfo) {c : Node Builtin} {f : Formula}
    (hc : Evaluates η c f) (cs : List (Node Builtin)) :
    Evaluates η (inner info .inverter (c :: cs)) (.not f) := by
  intro now w
  have htick : machine.tick now c w = ⟨.ofBool (f.eval w).1, c, (f.eval w).2⟩ := hc now w
  have hinvert (b : Bool) : (Status.ofBool b).invert = .ofBool b.not := by cases b <;> rfl
  rw [execute_inner, Control.tick, Inverter.tick, htick, hinvert, Formula.eval]
  rfl

/-! ### Children side by side -/

theorem tickAll_evalEach (hcs : List.Forall₂ (Evaluates η) cs fs) (now : Moment) (w : World η) :
    machine.tickAll now cs w =
      ((Formula.evalEach fs w).1.map Status.ofBool, cs, (Formula.evalEach fs w).2) := by
  induction hcs generalizing w with
  | nil => simp only [Machine.tickAll, Formula.evalEach, List.map_nil]
  | @cons c f cs fs hc _ ih =>
    have htick : machine.tick now c w = ⟨.ofBool (f.eval w).1, c, (f.eval w).2⟩ := hc now w
    simp only [Machine.tickAll, htick, ih, Formula.evalEach, List.map_cons]

/-- Nothing is cancelled where no child runs. -/
theorem cancelRunning_of_values (bs : List Bool) (cs : List (Node Builtin)) (h : η) :
    Parallel.cancelRunning machine (bs.map Status.ofBool) cs h = (cs, h) := by
  induction bs generalizing cs with
  | nil => rfl
  | cons b bs ih =>
    cases cs with
    | nil => cases b <;> rfl
    | cons c cs =>
      have hrest : Parallel.cancelRunning machine (((b :: bs).map Status.ofBool)) (c :: cs) h =
          (c :: (Parallel.cancelRunning machine (bs.map Status.ofBool) cs h).1,
            (Parallel.cancelRunning machine (bs.map Status.ofBool) cs h).2) := by
        cases b <;> rfl
      rw [hrest, ih]

/-- Where no child runs, the successes that are needed decide, whatever the other threshold is. -/
theorem decide_values (p : Parallel) {bs : List Bool} (hbs : bs ≠ []) :
    p.decide (bs.map Status.ofBool) =
      .ofBool (Formula.needed p.success bs.length ≤ bs.count true) := by
  have hsuccess : (bs.map Status.ofBool).count .success = bs.count true :=
    List.count_map_of_injective bs Status.ofBool Status.ofBool_injective true
  have hfailure : (bs.map Status.ofBool).count .failure = bs.count false :=
    List.count_map_of_injective bs Status.ofBool Status.ofBool_injective false
  have hall : bs.count true + bs.count false = bs.length := List.count_true_add_count_false bs
  have hlength : 0 < bs.length := List.length_pos_iff.2 hbs
  have hneeded : p.needSuccess bs.length = Formula.needed p.success bs.length := by
    rw [Parallel.needSuccess, Parallel.clamp, Formula.needed, Nat.max_eq_left hlength]
  -- every child that is no success is a failure, so that a node without enough successes fails
  simp only [Parallel.decide, List.length_map, hsuccess, hfailure, hneeded, hall]
  split
  · next henough => rw [decide_eq_true henough]; rfl
  · next henough => rw [decide_eq_false henough, if_pos (Or.inr trivial)]; rfl

theorem evaluates_parallel (info : NodeInfo) (p : Parallel)
    (hcs : List.Forall₂ (Evaluates η) cs fs) (hreset : cs.map restarted = cs) :
    Evaluates η (inner info (.parallel p) cs) (.enough p.success fs) := by
  intro now w
  rw [execute_inner, Control.tick, Formula.eval]
  by_cases hempty : cs = []
  · -- none of no formulas are needed
    subst hempty
    obtain rfl := List.forall₂_nil_left_iff.1 hcs
    simp only [Formula.evalEach, Formula.needed, List.length_nil, Nat.min_zero, Nat.zero_le]
    rfl
  have hvalues : (Formula.evalEach fs w).1 ≠ [] := by
    rw [← List.length_pos_iff, Formula.length_evalEach, ← hcs.length_eq]
    exact List.length_pos_iff.2 hempty
  rw [Parallel.tick, if_neg (by rwa [List.isEmpty_iff]), tickAll_evalEach hcs]
  dsimp only
  rw [decide_values p hvalues]
  generalize decide (Formula.needed p.success (Formula.evalEach fs w).1.length ≤
    (Formula.evalEach fs w).1.count true) = b
  -- no child runs, so none is cancelled
  have hcancel : World.atHost (Formula.evalEach fs w).2
      (Parallel.cancelRunning machine ((Formula.evalEach fs w).1.map Status.ofBool) cs) =
      (cs, (Formula.evalEach fs w).2) := by
    rw [World.atHost, cancelRunning_of_values]
  rw [hcancel, resetAll_machine, hreset]
  cases b <;> rfl

/-! ### Whole trees -/

/-- A tick of a waitless tree without progress evaluates its formula, and leaves the tree as it
    was. -/
theorem evaluates_formula {n : Node Builtin} (hn : n.Waitless) (hstart : n.Unstarted) :
    Evaluates η n n.formula := by
  induction hn with
  | @leaf info kind b hb =>
    rw [formula]
    exact evaluates_leaf hb
  | @inner info control cs hcontrol _ ih =>
    obtain ⟨hprogress, hcs⟩ := unstarted_inner.1 hstart
    have hreset : cs.map restarted = cs := map_restarted_of_unstarted hcs
    have hchildren : List.Forall₂ (Evaluates η) cs (cs.map formula) := by
      rw [List.forall₂_map_right_iff, List.forall₂_same]
      exact fun c hc => ih c hc (hcs c hc)
    rw [formula, formulas_eq_map]
    cases control with
    | sequence cursor =>
      obtain rfl : cursor = 0 := Control.Progress.cursor.inj hprogress
      exact evaluates_composite Control.walks_sequence Formula.shortCircuits_evalAll
        (fun w => by rw [Control.formula, Formula.eval]) info hchildren hreset
    | selector cursor =>
      obtain rfl : cursor = 0 := Control.Progress.cursor.inj hprogress
      exact evaluates_composite Control.walks_selector Formula.shortCircuits_evalAny
        (fun w => by rw [Control.formula, Formula.eval]) info hchildren hreset
    -- the other controls have no cursor
    | parallel settings => exact evaluates_parallel info settings hchildren hreset
    | inverter =>
      cases cs with
      | nil => exact absurd rfl hcontrol
      | cons c cs =>
        obtain ⟨hc, -⟩ := List.forall₂_cons.1 hchildren
        exact evaluates_inverter info hc cs
    | repeater | retry | timeout | custom => exact hcontrol.elim

/-- Ticks that evaluate a formula and leave the tree as it was evaluate it again and again. -/
theorem executes_of_evaluates {n : Node Builtin} {f : Formula} (h : Evaluates η n f) (w : World η)
    (ticks : List (Moment × World.Change η)) :
    n.executes w ticks =
      (f.evals w (ticks.map Prod.snd)).map fun r => (.ofBool r.1, r.2) := by
  induction ticks generalizing w with
  | nil => rfl
  | cons tick rest ih =>
    have htick := h tick.1 (tick.2 w)
    simp only [executes, htick, ih, List.map_cons, Formula.evals]

/-- **Trees without waiting are formulas.**  A tick of a waitless tree without progress answers
    whether its formula is true and leaves the world that the evaluation leaves.  It never runs, and
    it is the same tree again, so that every later tick is such an evaluation as well. -/
theorem waitless_execute {n : Node Builtin} (hn : n.Waitless) (hstart : n.Unstarted) :
    (∀ now (w : World η),
      n.execute now w = ⟨.ofBool (n.formula.eval w).1, n, (n.formula.eval w).2⟩ ∧
        (n.execute now w).status ≠ .running) ∧
      ∀ (w : World η) (ticks : List (Moment × World.Change η)),
        n.executes w ticks =
          (n.formula.evals w (ticks.map Prod.snd)).map fun r => (.ofBool r.1, r.2) := by
  have heval : Evaluates η n n.formula := evaluates_formula hn hstart
  refine ⟨?_, executes_of_evaluates heval⟩
  intro now w
  refine ⟨heval now w, ?_⟩
  rw [heval now w]
  exact Status.ofBool_ne_running _

/-- Opens a door, unless it is open or locked. -/
def openDoor : Node Builtin :=
  .inner { id := 0, name := "open" } (.selector 0)
    [.leaf { id := 1, name := "is open" } .condition
        (.valueEquals (some "door") (some (.text "open"))),
      .inner { id := 2, name := "move" } (.sequence 0)
        [.inner { id := 3, name := "not" } .inverter
            [.leaf { id := 4, name := "is locked" } .condition (.hasValue (some "lock"))],
          .leaf { id := 5, name := "push" } .action (.setValue (some "door") (some (.text "open")))]]

/-- Only the text `open` agrees with it, and a look at the door leaves the blackboard as it was. -/
theorem compare_open {w : World η} (h : w.blackboard.get? "door" ≠ some (.text "open")) :
    ∃ w', Effect.compare "door" (.text "open") w = (false, w') ∧ w'.blackboard = w.blackboard := by
  refine ⟨(Effect.compare "door" (.text "open") w).2, Prod.ext ?_ rfl, Effect.blackboard_compare ..⟩
  unfold Effect.compare
  cases hdoor : w.blackboard.get? "door" with
  | none => rfl
  | some v =>
    show Effect.agrees (.text "open") v = false
    cases v with
    | text t => exact beq_eq_false_iff_ne.2 fun ht => h (hdoor.trans (ht ▸ rfl))
    | flag b => cases b <;> decide
    | _ => rfl

/-- A door that is not open is opened unless there is a lock. -/
theorem openDoor_eval {w : World η} (h : w.blackboard.get? "door" ≠ some (.text "open")) :
    (openDoor.formula.eval w).1 = (w.blackboard.get? "lock").isNone ∧
      (openDoor.formula.eval w).2.blackboard =
        if (w.blackboard.get? "lock").isNone then w.blackboard.insert "door" (.text "open")
        else w.blackboard := by
  obtain ⟨w', hlook, hsame⟩ := compare_open h
  simp only [openDoor, formula, formulas, Control.formula, Builtin.formula, Formula.eval, Formula.evalAny,
    Formula.evalAll, hlook, hsame]
  cases w.blackboard.get? "lock" with
  | none => exact ⟨rfl, congrArg (Dict.insert · "door" (Value.text "open")) hsame⟩
  | some v => exact ⟨rfl, hsame⟩

theorem openDoor_execute :
    openDoor.Waitless ∧ openDoor.Unstarted ∧
      openDoor.formula = .any [.equal (some "door") (some (.text "open")),
        .all [.not (.present (some "lock")), .store (some "door") (some (.text "open"))]] ∧
      ∀ now (w : World Unit), w.blackboard.get? "door" ≠ some (.text "open") →
        (w.blackboard.get? "lock" = none →
          (openDoor.execute now w).status = .success ∧
          (openDoor.execute now w).world.blackboard = w.blackboard.insert "door" (.text "open")) ∧
        (w.blackboard.get? "lock" ≠ none →
          (openDoor.execute now w).status = .failure ∧
          (openDoor.execute now w).world.blackboard = w.blackboard) := by
  have hwaitless : openDoor.Waitless := by
    simp [openDoor, Control.Immediate, Builtin.Immediate]
  have hstart : openDoor.Unstarted := by
    simp [openDoor, Builtin.startedAt, Control.progress, Control.settings, Control.Settings.start]
  refine ⟨hwaitless, hstart, ?_, ?_⟩
  · simp only [openDoor, formula, formulas, Control.formula, Builtin.formula]
  · intro now w hdoor
    obtain ⟨hvalue, hblackboard⟩ := openDoor_eval hdoor
    rw [((waitless_execute hwaitless hstart).1 now w).1]
    dsimp only
    rw [hvalue, hblackboard]
    constructor
    · intro hlock
      rw [hlock]
      exact ⟨rfl, rfl⟩
    · intro hlock
      obtain ⟨v, hv⟩ := Option.ne_none_iff_exists'.1 hlock
      rw [hv]
      exact ⟨rfl, rfl⟩

end Node

end BehaviorTree
