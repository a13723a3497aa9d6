import BehaviorTree.Proofs.Control.Deeds
import BehaviorTree.Proofs.Control.Walk

namespace BehaviorTree

/-!
# The runs of a sequence and of a selector

A sequence and a selector keep a cursor from one tick to the next.  What is executed in a run, from its
first tick to its answer, are the children in their order: each is waited for while it runs, and the
next one follows in the tick in which it gives the answer after which the node goes on.

* `Ordered.Standing`, `Ordered.Course` — what was executed in a run that has come to a child, and in one
  up to an answer;
* `Ordered.walk_noting` — what a walk executes;
* `Ordered.move` — what a node that walks along its children can do on a tick;
* `Ordered.Lawful` — what it does on a tick after some calls;
* `Ordered.beats_law` — it does that on every tick until it is cancelled, whatever its children do.
-/

/-- The execution of a child that was noted, with its answer. -/
def Deed.execution? : Deed → Option (Nat × Status)
  | .executed child answer => some (child, answer)
  | _ => none

/-- The execution of a child with this answer. -/
def Deed.ofExecution (execution : Nat × Status) : Deed := .executed execution.1 execution.2

/-- Which children were executed during a call, with their answers. -/
def Beat.executions (b : Beat) : List (Nat × Status) := b.deeds.filterMap Deed.execution?

/-- Which children were executed in the run that goes on, with their answers, the first of them first. -/
def visits (past : List Beat) : List (Nat × Status) :=
  (currentRun past).reverse.flatMap Beat.executions

theorem visits_of_ends {b : Beat} (h : b.ends = true) (past : List Beat) :
    visits (b :: past) = [] := by
  rw [visits, currentRun_of_ends h]
  rfl

theorem visits_of_not_ends {b : Beat} (h : b.ends = false) (past : List Beat) :
    visits (b :: past) = visits past ++ b.executions := by
  rw [visits, currentRun_of_not_ends h, List.reverse_cons, List.flatMap_append,
    List.flatMap_singleton]
  rfl

@[simp]
theorem Deed.execution?_ofExecution (e : Nat × Status) : (ofExecution e).execution? = some e := rfl

@[simp]
theorem Deed.execution?_reset (child : Nat) : (reset child).execution? = none := rfl

namespace Ordered

variable {γ η : Type}

/-! ### What is executed in a run -/

/-- The run has come to child `child`: each child before it was executed until it gave `goOn`, one
    after the other, and this one was executed as often as it answered that it runs. -/
inductive Standing (goOn : Status) : Nat → List (Nat × Status) → Prop
  | start : Standing goOn 0 []
  | wait {child : Nat} {executions : List (Nat × Status)} : Standing goOn child executions →
    Standing goOn child (executions ++ [(child, .running)])
  | pass {child : Nat} {executions : List (Nat × Status)} : Standing goOn child executions →
    Standing goOn (child + 1) (executions ++ [(child, goOn)])

/-- A run of a node with `n` children up to an answer.  It is the answer of the child that was executed
    last, and `goOn` only if there is no child behind that. -/
inductive Course (goOn : Status) : Nat → Status → List (Nat × Status) → Prop
  | empty : Course goOn 0 goOn []
  | answered {n child : Nat} {executions : List (Nat × Status)} {answer : Status} :
    Standing goOn child executions → child < n → (answer = goOn → child + 1 = n) →
      Course goOn n answer (executions ++ [(child, answer)])

/-- One tick: from the cursor on, as many children as are passed give `goOn`, and the next one gives the
    answer. -/
def path (goOn : Status) (cursor passed : Nat) (answer : Status) : List (Nat × Status) :=
  (List.range' cursor passed).map (·, goOn) ++ [(cursor + passed, answer)]

/-- The number of children that have given `goOn` in the run that goes on. -/
def passed (goOn : Status) (past : List Beat) : Nat := (visits past).countP (·.2 = goOn)

section
variable {goOn : Status} {n child : Nat} {executions : List (Nat × Status)} {answer : Status}

theorem path_zero (goOn : Status) (cursor : Nat) (answer : Status) :
    path goOn cursor 0 answer = [(cursor, answer)] := rfl

theorem path_succ (goOn : Status) (cursor more : Nat) (answer : Status) :
    path goOn cursor (more + 1) answer = (cursor, goOn) :: path goOn (cursor + 1) more answer := by
  rw [path, path, List.range'_succ, List.map_cons, List.cons_append, Nat.add_right_comm,
    Nat.add_assoc]

theorem Standing.passes (h : Standing goOn child executions) (more : Nat) :
    Standing goOn (child + more) (executions ++ (List.range' child more).map (·, goOn)) := by
  induction more with
  | zero => simpa using h
  | succ more ih =>
    rw [List.range'_1_concat, List.map_append, ← List.append_assoc]
    exact ih.pass

/-- The number of the child where the run stands is the number of those that were passed. -/
theorem Standing.countP_eq (hgo : goOn ≠ .running) (h : Standing goOn child executions) :
    executions.countP (·.2 = goOn) = child := by
  induction h with
  | start => rfl
  | wait _ ih => simp [ih, hgo.symm]
  | pass _ ih => simp [ih]

/-- No child beyond the one where the run stands was executed, and that one was only waited for. -/
theorem Standing.of_mem (h : Standing goOn child executions) {e : Nat × Status}
    (he : e ∈ executions) : e.1 < child ∨ e = (child, .running) := by
  induction h with
  | start => simp at he
  | wait _ ih =>
    rcases List.mem_append.1 he with he | he
    · exact ih he
    · exact .inr (List.mem_singleton.1 he)
  | pass _ ih =>
    left
    rcases List.mem_append.1 he with he | he
    · rcases ih he with hlt | rfl
      · exact Nat.lt_succ_of_lt hlt
      · exact Nat.lt_succ_self _
    · obtain rfl := List.mem_singleton.1 he
      exact Nat.lt_succ_self _

theorem Standing.mem_of_lt (h : Standing goOn child executions) {i : Nat} (hi : i < child) :
    (i, goOn) ∈ executions := by
  induction h with
  | start => exact absurd hi (Nat.not_lt_zero i)
  | wait _ ih => exact List.mem_append_left _ (ih hi)
  | pass _ ih =>
    rcases Nat.lt_succ_iff_lt_or_eq.1 hi with hlt | rfl
    · exact List.mem_append_left _ (ih hlt)
    · exact List.mem_append_right _ (List.mem_singleton.2 rfl)

/-- A tick takes a run that stood at the cursor to its answer. -/
theorem Standing.course (h : Standing goOn child executions) {more : Nat} (hlt : child + more < n)
    (hlast : answer = goOn → child + more + 1 = n) :
    Course goOn n answer (executions ++ path goOn child more answer) := by
  rw [path, ← List.append_assoc]
  exact .answered (h.passes more) hlt hlast

/-- Unless all children are passed, the answer is that of the child that was executed last. -/
theorem Course.eq_iff_last {s : Status} (hs : s ≠ goOn) (h : Course goOn n answer executions) :
    answer = s ↔ executions.getLast?.map Prod.snd = some s := by
  cases h with
  | empty => simp [hs.symm]
  | answered => simp

/-- The answer is `goOn` exactly when all children have given it. -/
theorem Course.eq_goOn_iff (hgo : goOn ≠ .running) (h : Course goOn n answer executions) :
    answer = goOn ↔ ∀ i < n, (i, goOn) ∈ executions := by
  cases h with
  | empty => simp
  | @answered _ child executions _ hstand hlt hlast =>
    constructor
    · rintro rfl i hi
      obtain rfl := hlast rfl
      exact hstand.pass.mem_of_lt hi
    · -- the child that was executed last has not given `goOn` before
      intro hall
      rcases List.mem_append.1 (hall child hlt) with hmem | hmem
      · rcases hstand.of_mem hmem with hbefore | hwait
        · exact absurd hbefore (Nat.lt_irrefl child)
        · exact absurd (congrArg Prod.snd hwait) hgo
      · exact (congrArg Prod.snd (List.mem_singleton.1 hmem)).symm

end

/-! ### One tick -/

/-- What a walk that begins at a child executes, and where it ends. -/
theorem walk_noting (m : Machine γ η) (goOn : Status) (now : Moment) {first cursor : Nat}
    {cs : List (Nat × γ)} (hcs : cs.map Prod.fst = List.range' first cs.length)
    (h : cursor < cs.length) (w : World (Noted Deed η)) :
    let o := walk m.noting goOn now cursor cs w
    ∃ more, cursor + more < cs.length ∧ (o.status = goOn → cursor + more + 1 = cs.length) ∧
      (o.status ≠ goOn → o.next.1 = cursor + more) ∧
      o.world.notes =
        w.notes ++ (path goOn (first + cursor) more o.status).map Deed.ofExecution := by
  induction cs generalizing first cursor w with
  | nil => exact absurd h (Nat.not_lt_zero cursor)
  | cons c cs ih =>
    rw [List.length_cons, List.map_cons, List.range'_succ, List.cons.injEq] at hcs
    obtain ⟨rfl, hcs⟩ := hcs
    cases cursor with
    | succ cursor =>
      obtain ⟨more, hlt, hlast, hstop, hnotes⟩ := ih hcs (Nat.lt_of_succ_lt_succ h) w
      simp only [walk, List.length_cons]
      refine ⟨more, by omega, fun hgo => by have := hlast hgo; omega,
        fun hne => by have := hstop hne; omega, ?_⟩
      rw [hnotes, Nat.add_right_comm, Nat.add_assoc]
    | zero =>
      have hfirst : (m.noting.tick now c w).world.notes =
          w.notes ++ [.executed c.1 (m.noting.tick now c w).status] := rfl
      simp only [walk]
      split
      · next hpass =>
        -- the next child is executed at once, if there is one
        cases cs with
        | nil =>
          refine ⟨0, h, fun _ => rfl, fun hne => absurd rfl hne, ?_⟩
          rw [walk, path_zero, hfirst, hpass]
          rfl
        | cons d ds =>
          obtain ⟨more, hlt, hlast, hstop, hnotes⟩ :=
            ih hcs (Nat.succ_pos _) (m.noting.tick now c w).world
          refine ⟨more + 1, by rw [List.length_cons]; omega, fun hgo => ?_, fun hne => ?_, ?_⟩
          · have := hlast hgo
            rw [List.length_cons]
            omega
          · have := hstop hne
            dsimp only
            omega
          · rw [hnotes, hfirst, hpass, path_succ, List.map_cons, List.append_assoc]
            rfl
      · next hstop =>
        refine ⟨0, h, fun hgo => absurd hgo hstop, fun _ => rfl, ?_⟩
        rw [path_zero, hfirst]
        rfl

/-- What a node that walks along its `n` children from its cursor can do on a tick. -/
inductive Move (control : Nat → Control) (goOn : Status) (n cursor : Nat) (now : Moment) : Beat → Prop
  /-- There are no children. -/
  | nothing (hn : n = 0) : Move control goOn n cursor now ⟨.execute now, [], some goOn, control 0⟩
  /-- A child runs, and the cursor stays with it. -/
  | waits (more : Nat) (hlt : cursor + more < n) :
    Move control goOn n cursor now ⟨.execute now,
      (path goOn cursor more .running).map .ofExecution, some .running, control (cursor + more)⟩
  /-- The run ends, and all children are reset. -/
  | ends (more : Nat) (answer : Status) (hend : answer ≠ .running) (hlt : cursor + more < n)
      (hlast : answer = goOn → cursor + more + 1 = n) :
    Move control goOn n cursor now ⟨.execute now,
      (path goOn cursor more answer).map .ofExecution ++ (List.range n).map .reset,
      some answer, control 0⟩

/-- A tick is the tick over the children with their numbers, which notes what is done to them. -/
theorem beat_execute {control : Nat → Control} {goOn : Status} (hw : Control.Walks control goOn)
    (m : Machine γ η) (name : String) (cursor : Nat) (cs : List γ) (w : World η) (now : Moment) :
    let o := tick m.noting goOn now cursor (numbered cs) (w.withNotes [])
    (control cursor).beat m name cs w (.execute now) =
      ⟨.execute now, o.world.notes, some o.status, control o.next.1⟩ := by
  intro o
  have hcall : (control cursor).call m.noting name (numbered cs) (w.withNotes []) (.execute now) =
      (some o.status, (control o.next.1, o.next.2), o.world) := by
    rw [Control.call, hw.tick]
    rfl
  obtain ⟨hanswer, ⟨hcontrol, -⟩, -⟩ :=
    (control cursor).call_noting m name cs w [] (.execute now)
  rw [hcall] at hanswer hcontrol
  rw [Control.beat, Control.deeds, hcall, ← hanswer, ← hcontrol]

theorem move {control : Nat → Control} {goOn : Status} (hw : Control.Walks control goOn)
    (m : Machine γ η) (name : String) {cursor : Nat} {cs : List γ}
    (h : cursor < cs.length ∨ cursor = 0) (w : World η) (now : Moment) :
    Move control goOn cs.length cursor now ((control cursor).beat m name cs w (.execute now)) := by
  have hnumbers : (numbered cs).map Prod.fst = List.range cs.length := numbers_numbered cs
  rw [beat_execute hw, tick]
  -- of the children only their numbers matter from here on
  rw [← length_numbered cs] at h hnumbers ⊢
  generalize numbered cs = ds at h hnumbers ⊢
  have hreaches := (walk_pass (m := m.noting) goOn now cursor ds (w.withNotes [])).reaches
  rcases Nat.lt_or_ge cursor ds.length with hlt | hge
  · rw [List.range_eq_range'] at hnumbers
    obtain ⟨more, hmore, hlast, hstop, hnotes⟩ :=
      walk_noting m goOn now hnumbers hlt (w.withNotes [])
    generalize walk m.noting goOn now cursor ds (w.withNotes []) = o at *
    rw [Nat.zero_add] at hnotes
    split
    · next hrunning =>
      rw [hstop (by rw [hrunning]; exact hw.goOn_ne.symm), hnotes, hrunning]
      exact .waits more hmore
    · next hend =>
      -- the reset comes to all children, those the walk passed over included
      dsimp only
      rw [Machine.notes_resetAll, hreaches.numbers_eq, hnotes, hnumbers, ← List.range_eq_range']
      exact .ends more o.status hend hmore hlast
  · -- there is no child left only if there was none
    obtain rfl : cursor = 0 := h.resolve_left (Nat.not_lt.2 hge)
    obtain rfl : ds = [] := List.eq_nil_of_length_eq_zero (Nat.le_zero.1 hge)
    rw [walk, if_neg hw.goOn_ne]
    exact .nothing rfl

/-- With its cursor behind the last child, a node executes none, and its run ends. -/
theorem beat_behind {control : Nat → Control} {goOn : Status} (hw : Control.Walks control goOn)
    (m : Machine γ η) (name : String) {cursor : Nat} {cs : List γ} (h : cs.length ≤ cursor)
    (w : World η) (now : Moment) :
    (control cursor).beat m name cs w (.execute now) =
      ⟨.execute now, (List.range cs.length).map .reset, some goOn, control 0⟩ := by
  have hnumbered : (numbered cs).length ≤ cursor := by rwa [length_numbered]
  rw [beat_execute hw, tick, walk_of_length_le hnumbered, if_neg hw.goOn_ne]
  dsimp only
  rw [Machine.notes_resetAll, numbers_numbered]
  rfl

/-! ### The law -/

/-- What a node that goes on after `goOn`, with `n` children and with the control `control cursor` when
    its cursor is at the child `cursor`, does on a tick after the calls `past`. -/
structure Lawful (control : Nat → Control) (goOn : Status) (n : Nat) (past : List Beat) (b : Beat) :
    Prop where
  /-- In the run up to this tick the children were executed in their order, each of them until it gave
      `goOn`, and the child that was executed last gave the answer of the node. -/
  course : ∃ answer, b.answer = some answer ∧
    Course goOn n answer (visits past ++ b.executions)
  /-- The tick takes up the child after those that were passed, and goes on to the next child at
      once when one gives `goOn`. -/
  resumes : 0 < n → ∃ more answer, b.answer = some answer ∧
    b.executions = path goOn (passed goOn past) more answer
  /-- The cursor is after the children that were passed in this run. -/
  holds : b.control = control (passed goOn (b :: past))
  /-- No child before the cursor is executed again. -/
  before : ∀ e ∈ b.executions, passed goOn past ≤ e.1
  /-- No child beyond the cursor was executed in this run. -/
  beyond : ∀ e ∈ visits (b :: past), e.1 ≤ passed goOn (b :: past)
  /-- The node runs on exactly when the child that was executed last does. -/
  running_iff : b.answer = some .running ↔
    (visits past ++ b.executions).getLast?.map Prod.snd = some .running
  /-- It is stopped exactly when that child stopped it. -/
  stopped_iff : b.answer = some goOn.invert ↔
    (visits past ++ b.executions).getLast?.map Prod.snd = some goOn.invert
  /-- It has passed exactly when all children were passed. -/
  passed_iff : b.answer = some goOn ↔
    ∀ child < n, (child, goOn) ∈ visits past ++ b.executions
  /-- While the node runs nothing is done but these executions. -/
  runs_on : b.answer = some .running → b.deeds = b.executions.map .ofExecution
  /-- At the end of the run every child is reset, once, and the cursor is at the first child. -/
  ends : b.answer ≠ some .running →
    b.deeds = b.executions.map .ofExecution ++ (List.range n).map .reset ∧ b.control = control 0

section
variable {control : Nat → Control} {goOn : Status} {n cursor : Nat} {now : Moment} {past : List Beat}
  {b : Beat}

theorem le_of_mem_path {more : Nat} {answer : Status} {e : Nat × Status}
    (he : e ∈ path goOn cursor more answer) : cursor ≤ e.1 := by
  rcases List.mem_append.1 he with he | he
  · obtain ⟨child, hchild, rfl⟩ := List.mem_map.1 he
    exact (List.mem_range'_1.1 hchild).1
  · rw [List.mem_singleton.1 he]
    exact Nat.le_add_right cursor more

theorem executions_waits (call : Call) (executions : List (Nat × Status)) (answer : Option Status)
    (c : Control) :
    (Beat.mk call (executions.map .ofExecution) answer c).executions = executions := by
  simp [Beat.executions, List.filterMap_map, Function.comp_def]

theorem executions_ends (call : Call) (executions : List (Nat × Status)) (children : List Nat)
    (answer : Option Status) (c : Control) :
    (Beat.mk call (executions.map .ofExecution ++ children.map .reset) answer c).executions =
      executions := by
  simp [Beat.executions, List.filterMap_map, Function.comp_def]

theorem Move.course (hgo : goOn ≠ .running) (hmove : Move control goOn n cursor now b)
    (hstand : Standing goOn cursor (visits past)) (hopen : cursor < n ∨ visits past = []) :
    ∃ answer, b.answer = some answer ∧ Course goOn n answer (visits past ++ b.executions) := by
  cases hmove with
  | nothing hn =>
    subst hn
    rw [hopen.resolve_left (Nat.not_lt_zero cursor)]
    exact ⟨goOn, rfl, .empty⟩
  | waits more hlt =>
    rw [executions_waits]
    exact ⟨.running, rfl, hstand.course hlt fun h => absurd h.symm hgo⟩
  | ends more answer _ hlt hlast =>
    rw [executions_ends]
    exact ⟨answer, rfl, hstand.course hlt hlast⟩

theorem Move.resumes (hmove : Move control goOn n cursor now b) (hn : 0 < n) :
    ∃ more answer, b.answer = some answer ∧ b.executions = path goOn cursor more answer := by
  cases hmove with
  | nothing hzero => exact absurd hn (Nat.not_lt.2 (Nat.le_of_eq hzero))
  | waits more => exact ⟨more, .running, rfl, executions_waits ..⟩
  | ends more answer => exact ⟨more, answer, rfl, executions_ends ..⟩

theorem Move.le_of_mem (hmove : Move control goOn n cursor now b) {e : Nat × Status}
    (he : e ∈ b.executions) : cursor ≤ e.1 := by
  cases hmove with
  | nothing => exact absurd he (List.not_mem_nil (a := e))
  | waits =>
    rw [executions_waits] at he
    exact le_of_mem_path he
  | ends =>
    rw [executions_ends] at he
    exact le_of_mem_path he

/-- After a tick the cursor is where the run stands, at one of the children if the run goes on. -/
theorem Move.stands (hgo : goOn ≠ .running) (hmove : Move control goOn n cursor now b)
    (hstand : Standing goOn cursor (visits past)) :
    ∃ next, b.control = control next ∧ Standing goOn next (visits (b :: past)) ∧
      (next < n ∨ visits (b :: past) = []) := by
  cases hmove with
  | nothing =>
    rw [visits_of_ends (Beat.ends_of_ne_running (mt Option.some.inj hgo))]
    exact ⟨0, rfl, .start, .inr rfl⟩
  | waits more hlt =>
    rw [visits_of_not_ends rfl, executions_waits, path, ← List.append_assoc]
    exact ⟨cursor + more, rfl, (hstand.passes more).wait, .inl hlt⟩
  | ends more answer hend =>
    rw [visits_of_ends (Beat.ends_of_ne_running (mt Option.some.inj hend))]
    exact ⟨0, rfl, .start, .inr rfl⟩

theorem Move.runs_on (hmove : Move control goOn n cursor now b) (h : b.answer = some .running) :
    b.deeds = b.executions.map .ofExecution := by
  cases hmove with
  | nothing => rfl
  | waits => rw [executions_waits]
  | ends _ _ hend => exact absurd (Option.some.inj h) hend

theorem Move.of_ends (hmove : Move control goOn n cursor now b) (h : b.answer ≠ some .running) :
    b.deeds = b.executions.map .ofExecution ++ (List.range n).map .reset ∧
      b.control = control 0 := by
  cases hmove with
  | nothing hn =>
    subst hn
    exact ⟨rfl, rfl⟩
  | waits => exact absurd rfl h
  | ends =>
    rw [executions_ends]
    exact ⟨rfl, rfl⟩

theorem Move.lawful (hgo : goOn ≠ .running) (hmove : Move control goOn n cursor now b)
    (hstand : Standing goOn cursor (visits past)) (hopen : cursor < n ∨ visits past = []) :
    Lawful control goOn n past b := by
  obtain ⟨answer, hanswer, hcourse⟩ := hmove.course hgo hstand hopen
  obtain ⟨next, hcontrol, hnext, -⟩ := hmove.stands hgo hstand
  have hcursor : passed goOn past = cursor := hstand.countP_eq hgo
  have hafter : passed goOn (b :: past) = next := hnext.countP_eq hgo
  exact
    { course := ⟨answer, hanswer, hcourse⟩
      resumes := by
        rw [hcursor]
        exact hmove.resumes
      holds := by rw [hafter, hcontrol]
      before := by
        rw [hcursor]
        exact fun e => hmove.le_of_mem
      beyond := by
        intro e he
        rw [hafter]
        rcases hnext.of_mem he with hlt | rfl
        · exact Nat.le_of_lt hlt
        · exact Nat.le_refl next
      running_iff := by rw [hanswer, Option.some_inj, hcourse.eq_iff_last hgo.symm]
      stopped_iff := by rw [hanswer, Option.some_inj, hcourse.eq_iff_last (Status.invert_ne_self hgo)]
      passed_iff := by rw [hanswer, Option.some_inj, hcourse.eq_goOn_iff hgo]
      runs_on := hmove.runs_on
      ends := hmove.of_ends }

end

/-! ### The children that a tick executes -/

/-- Which children a tick executes: as many as it comes to, one after the other from the cursor on.  If
    the node runs then, the cursor is at the last of them. -/
theorem exists_executions {control : Nat → Control} {goOn : Status}
    (hw : Control.Walks control goOn) (m : Machine γ η) (name : String) (cursor : Nat) (cs : List γ)
    (w : World η) (now : Moment) :
    let b := (control cursor).beat m name cs w (.execute now)
    (cs.length ≤ cursor → b.executions = [] ∧ b.answer = some goOn) ∧
      (cursor < cs.length → ∃ more answer, b.executions = path goOn cursor more answer ∧
        cursor + more < cs.length ∧
        (b.answer = some .running → b.control = control (cursor + more))) := by
  constructor
  · intro hbehind
    rw [beat_behind hw m name hbehind]
    exact ⟨executions_ends _ [] _ _ _, rfl⟩
  · intro hlt
    have hmove := move hw m name (.inl hlt) w now
    generalize (control cursor).beat m name cs w (.execute now) = b at hmove
    cases hmove with
    | nothing hn =>
      rw [hn] at hlt
      exact absurd hlt (Nat.not_lt_zero cursor)
    | waits more hmore => exact ⟨more, .running, executions_waits .., hmore, fun _ => rfl⟩
    | ends more answer hend hmore =>
      exact ⟨more, answer, executions_ends .., hmore, fun h => absurd (Option.some.inj h) hend⟩

/-! ### Sequences of calls -/

/-- A node with `n` children whose cursor is where its run stands. -/
def InStep (control : Nat → Control) (goOn : Status) (n : Nat) (past : List Beat) (c : Control)
    (cs : List γ) : Prop :=
  ∃ cursor, c = control cursor ∧ cs.length = n ∧ Standing goOn cursor (visits past) ∧
    (cursor < n ∨ visits past = [])

/-- Every tick is lawful, and the node stays in step with the calls until it is cancelled. -/
theorem beat_lawful {control : Nat → Control} {goOn : Status} (hw : Control.Walks control goOn)
    {m : Machine γ η} {name : String} {n : Nat} {past : List Beat} {c : Control} {cs : List γ}
    (h : InStep control goOn n past c cs) (w : World η) {call : Call} (hcall : call ≠ .cancel) :
    let b := c.beat m name cs w call
    (∀ now, b.call = .execute now → Lawful control goOn n past b) ∧
      InStep control goOn n (b :: past) b.control (c.call m name cs w call).2.1.2 := by
  obtain ⟨cursor, rfl, rfl, hstand, hopen⟩ := h
  cases call with
  | execute now =>
    -- a run in which nothing was executed stands at the first child
    have hcursor : cursor < cs.length ∨ cursor = 0 := by
      refine hopen.imp_right fun hnone => ?_
      rw [← hstand.countP_eq hw.goOn_ne, hnone]
      rfl
    have hmove := move hw m name hcursor w now
    obtain ⟨next, hcontrol, hnext⟩ := hmove.stands hw.goOn_ne hstand
    have hlength := ((control cursor).tick_reaches (m := m) name now cs w).length_eq
    exact ⟨fun _ _ => hmove.lawful hw.goOn_ne hstand hopen, next, hcontrol, hlength.symm, hnext⟩
  | reset =>
    intro b
    have hnone : visits (b :: past) = [] := visits_of_ends rfl past
    rw [InStep, hnone]
    exact ⟨nofun, 0, hw.restart cursor, Machine.length_sweep m.reset cs w.host, .start, .inr rfl⟩
  | cancel => exact absurd rfl hcall

/-- On every tick of every sequence of ticks and resets from a reset state, a node that walks along its
    children does what the calls before the tick say, whatever its children do. -/
theorem beats_law {control : Nat → Control} {goOn : Status} (hw : Control.Walks control goOn)
    (m : Machine γ η) (name : String) (cursor : Nat) (cs : List γ) (w : World η)
    {calls : List (Call × World.Change η)} (hcalls : ∀ call ∈ calls, call.1 ≠ .cancel)
    {before after : List Beat} {b : Beat}
    (hb : (control cursor).restart.beats m name cs w calls = before ++ b :: after) {now : Moment}
    (hnow : b.call = .execute now) : Lawful control goOn cs.length before.reverse b := by
  have hstart : InStep control goOn cs.length [] (control cursor).restart cs :=
    ⟨0, hw.restart cursor, rfl, .start, .inr rfl⟩
  have hlaw := Control.beats_law_of (· ≠ .cancel)
    (fun past b => ∀ now, b.call = .execute now → Lawful control goOn cs.length past b)
    (InStep control goOn cs.length) (beat_lawful hw) hcalls hstart w hb
  rw [List.append_nil] at hlaw
  exact hlaw now hnow

end Ordered

end BehaviorTree
