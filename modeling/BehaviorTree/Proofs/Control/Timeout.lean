import BehaviorTree.Proofs.Control.Deeds
import BehaviorTree.Proofs.Replay
import BehaviorTree.Proofs.Time

namespace BehaviorTree

/-!
# The runs of a timeout node

A run of a timeout node begins with the first tick after the node was made, or after a call that ended
the run before: a final answer, a reset or a cancel.  The reading of the clock that came with this tick
is all that the node remembers of it.

* `Timeout.leastLimit_le_configured` — the limit is never below the least one;
* `Timeout.startedAt` — when the run that goes on began, by the calls so far;
* `Timeout.move` — what a timeout node can do on a tick;
* `Timeout.Lawful` — what it does on a tick after these calls;
* `Timeout.timeout_lawful` — it does that on every tick, whatever its child does.
-/

namespace Timeout

variable {γ η : Type}

/-! ### Limits -/

theorem leastLimit_le_defaultLimit : leastLimit ≤ defaultLimit := by decide

theorem leastLimit_le_atLeast (x : Float) : leastLimit ≤ atLeast leastLimit x := by
  unfold atLeast
  split
  · assumption
  · decide

theorem leastLimit_le_withSettings (limit : Option Float) (success : Option Bool) :
    leastLimit ≤ (withSettings limit success).limit := by
  cases limit with
  | none => exact leastLimit_le_defaultLimit
  | some x => exact leastLimit_le_atLeast x

theorem leastLimit_le_configure {s : Timeout} (h : leastLimit ≤ s.limit) (key : String)
    (value : PropertyValue) : leastLimit ≤ (s.configure key value).limit := by
  unfold configure
  split
  · cases value.asReal? with
    | none => exact leastLimit_le_defaultLimit
    | some x => exact leastLimit_le_atLeast x
  · split <;> exact h

/-- Whatever a timeout node is told, its limit is not below the least one. -/
theorem leastLimit_le_configured {s : Timeout} (h : leastLimit ≤ s.limit)
    (properties : List (String × PropertyValue)) :
    leastLimit ≤ (Dict.writeAll configure properties s).limit := by
  induction properties generalizing s with
  | nil => exact h
  | cons p properties ih => exact ih (leastLimit_le_configure h p.1 p.2)

/-- A limit that is not below the least one is positive. -/
theorem limit_pos {s : Timeout} (h : leastLimit ≤ s.limit) : 0.0 < s.limit :=
  pos_of_le (by decide) h

/-! ### What the calls so far say -/

/-- The reading that came with the first tick of the current run. -/
def startedAt (past : List Beat) : Option Float := (currentRun past).reverse.findSome? Beat.reading

/-- How often the child was cancelled during these calls. -/
def cancellations (calls : List Beat) : Nat := (calls.flatMap Beat.deeds).count (.cancelled 0)

section
variable {b : Beat}

theorem startedAt_of_not_ends (h : b.ends = false) (past : List Beat) :
    startedAt (b :: past) = (startedAt past).or b.reading := by
  simp [startedAt, currentRun_of_not_ends h]

theorem cancellations_cons (b : Beat) (calls : List Beat) :
    cancellations (b :: calls) = b.deeds.count (.cancelled 0) + cancellations calls := by
  simp [cancellations]

end

/-! ### One tick -/

/-- What is left of a run that began at `start` when the child has answered. -/
def afterTick (start : Float) (answer : Status) : Option Float :=
  if answer.isTerminal then none else some start

/-- What a timeout node can do on a tick. -/
inductive Move (s : Timeout) (now : Moment) (startedAt : Option Float) : Beat → Option Float → Prop
  /-- The child is executed. -/
  | passed (answer : Status) (hopen : ¬ s.limit ≤ now.elapsed (startedAt.getD now.now)) :
    Move s now startedAt
      ⟨.execute now, [.executed 0 answer], some answer,
        .timeout s (afterTick (startedAt.getD now.now) answer)⟩
      (afterTick (startedAt.getD now.now) answer)
  /-- The limit is reached. -/
  | expired (hover : s.limit ≤ now.elapsed (startedAt.getD now.now)) :
    Move s now startedAt
      ⟨.execute now, [.cancelled 0], some (.ofBool s.successOnTimeout), .timeout s none⟩ none

theorem move (m : Machine γ η) (name : String) (s : Timeout) (startedAt : Option Float) (c : γ)
    (w : World η) (now : Moment) :
    ∃ startedAt' c',
      Move s now startedAt ((Control.timeout s startedAt).beat m name [c] w (.execute now))
        startedAt' ∧
      ((Control.timeout s startedAt).call m name [c] w (.execute now)).2.1 =
        (.timeout s startedAt', [c']) := by
  simp only [Control.beat, Control.deeds, Control.call, Control.tick, tick]
  by_cases hover : s.limit ≤ now.elapsed (startedAt.getD now.now)
  · simp only [if_pos hover, Outcome.map]
    exact ⟨_, _, .expired hover, rfl⟩
  · simp only [if_neg hover, Outcome.map]
    exact ⟨_, _, .passed _ hover, rfl⟩

/-! ### The law -/

/-- What a timeout node does on a tick, after the calls `past`. -/
structure Lawful (s : Timeout) (past : List Beat) (now : Moment) (b : Beat) : Prop where
  /-- The child is executed exactly when less than the limit has passed since the run began, which is
      now when there is no run. -/
  executed_iff : b.childAnswer.isSome = true ↔
    now.elapsed ((startedAt past).getD now.now) < s.limit
  /-- It is executed once, nothing else is done, and its answer is passed on. -/
  passes : ∀ answer, b.childAnswer = some answer →
    b.deeds = [.executed 0 answer] ∧ b.answer = some answer
  /-- Otherwise the child is cancelled once, nothing else is done, and the node answers from its
      settings, but not with running. -/
  expires : b.childAnswer = none → b.deeds = [.cancelled 0] ∧
    b.answer = some (.ofBool s.successOnTimeout) ∧ b.answer ≠ some .running
  /-- The first tick of a run executes the child. -/
  first : currentRun past = [] → b.childAnswer.isSome = true
  /-- In a run, up to this tick, the child was cancelled once at most, and then the run is over. -/
  cancels_once : cancellations (b :: currentRun past) ≤ 1 ∧
    (cancellations (b :: currentRun past) = 1 → b.ends = true)
  /-- The node remembers when the run began, as long as it goes on. -/
  holds : b.control = .timeout s (startedAt (b :: past))

/-- The node remembers when the run began, and has not cancelled its child since. -/
structure Tracks (past : List Beat) (started : Option Float) : Prop where
  started : started = startedAt past
  quiet : cancellations (currentRun past) = 0

theorem tracks_start {past : List Beat} (h : currentRun past = []) : Tracks past none where
  started := by simp [startedAt, h]
  quiet := by simp [cancellations, h]

section
variable {s : Timeout} {past : List Beat} {started started' : Option Float} {now : Moment} {b : Beat}

/-- What a timeout node does keeps its memory and the calls in step. -/
theorem Move.tracks (h : Tracks past started) (hmove : Move s now started b started') :
    Tracks (b :: past) started' := by
  cases hmove with
  | expired =>
    apply tracks_start
    exact currentRun_of_ends (by simp [Beat.ends]) past
  | passed answer =>
    -- a final answer of the child ends the run
    cases hanswer : answer.isTerminal with
    | true =>
      rw [afterTick, if_pos hanswer]
      exact tracks_start (currentRun_of_ends (by simp [Beat.ends, hanswer]) past)
    | false =>
      have hends : Beat.ends ⟨.execute now, [.executed 0 answer], some answer,
          .timeout s (afterTick (started.getD now.now) answer)⟩ = false := by
        simp [Beat.ends, hanswer]
      refine ⟨?_, ?_⟩
      · rw [startedAt_of_not_ends hends, ← h.started, afterTick, hanswer]
        cases started <;> rfl
      · rw [currentRun_of_not_ends hends, cancellations_cons, h.quiet]
        rfl

theorem Move.control_eq (hmove : Move s now started b started') : b.control = .timeout s started' := by
  cases hmove <;> rfl

theorem Move.lawful (hlimit : leastLimit ≤ s.limit) (h : Tracks past started)
    (hmove : Move s now started b started') : s.Lawful past now b := by
  -- the node asks whether the limit is reached, which is the opposite only because both are numbers
  have hopen_iff : ¬ s.limit ≤ now.elapsed (started.getD now.now) ↔
      now.elapsed ((startedAt past).getD now.now) < s.limit := by
    have hnumber : IsNumber s.limit := (isNumber_of_le hlimit).2
    rw [← not_lt_iff (isNumber_elapsed _ _) hnumber, not_not, h.started]
  -- a run that begins now has lasted no time, and the limit is positive
  have hfirst : currentRun past = [] → now.elapsed ((startedAt past).getD now.now) < s.limit := by
    intro hrun
    have hstarted : startedAt past = none := by simp [startedAt, hrun]
    rw [hstarted, Option.getD_none, elapsed_self]
    exact limit_pos hlimit
  have hnext := hmove.tracks h
  have hholds : b.control = .timeout s (startedAt (b :: past)) := by
    rw [hmove.control_eq, hnext.started]
  cases hmove with
  | passed answer hopen =>
    have hcancels : cancellations (⟨.execute now, [.executed 0 answer], some answer,
        .timeout s (afterTick (started.getD now.now) answer)⟩ :: currentRun past) = 0 := by
      rw [cancellations_cons, h.quiet]
      rfl
    exact
      { executed_iff := iff_of_true rfl (hopen_iff.1 hopen)
        passes := by
          rintro _ ⟨rfl⟩
          exact ⟨rfl, rfl⟩
        expires := nofun
        first := fun _ => rfl
        cancels_once := by simp [hcancels]
        holds := hholds }
  | expired hover =>
    have hclosed := mt hopen_iff.2 (not_not.2 hover)
    have hends : (Status.ofBool s.successOnTimeout).isTerminal = true := by simp
    have hanswer : some (Status.ofBool s.successOnTimeout) ≠ some .running := by
      intro heq
      rw [Option.some.inj heq] at hends
      exact absurd hends (by decide)
    exact
      { executed_iff := iff_of_false (by simp [Beat.childAnswer]) hclosed
        passes := nofun
        expires := fun _ => ⟨rfl, rfl, hanswer⟩
        first := fun hrun => absurd (hfirst hrun) hclosed
        cancels_once := by
          rw [cancellations_cons, h.quiet]
          exact ⟨Nat.le_refl 1, fun _ => hends⟩
        holds := hholds }

end

/-! ### Sequences of calls -/

/-- A timeout node with one child, in step with the calls so far. -/
def InStep (s : Timeout) (past : List Beat) (control : Control) (cs : List γ) : Prop :=
  ∃ started c, control = .timeout s started ∧ cs = [c] ∧ Tracks past started

/-- Every tick is lawful, and the node stays in step with the calls.  A reset or a cancel ends the
    run. -/
theorem beat_lawful {m : Machine γ η} {name : String} {s : Timeout} (hlimit : leastLimit ≤ s.limit)
    {past : List Beat} {control : Control} {cs : List γ} (h : InStep s past control cs) (w : World η)
    (call : Call) :
    let b := control.beat m name cs w call
    (∀ now, b.call = .execute now → s.Lawful past now b) ∧
      InStep s (b :: past) b.control (control.call m name cs w call).2.1.2 := by
  obtain ⟨started, c, rfl, rfl, htracks⟩ := h
  cases call with
  | execute now =>
    obtain ⟨started', c', hmove, hnext⟩ := move m name s started c w now
    refine ⟨?_, started', c', hmove.control_eq, by rw [hnext], hmove.tracks htracks⟩
    rintro _ ⟨rfl⟩
    exact hmove.lawful hlimit htracks
  | reset => exact ⟨nofun, none, _, rfl, rfl, tracks_start (currentRun_of_ends rfl past)⟩
  | cancel => exact ⟨nofun, none, _, rfl, rfl, tracks_start (currentRun_of_ends rfl past)⟩

/-- On every tick of every sequence of calls to a new timeout node with one child, however it was set,
    it does what the calls before the tick say, whatever the child does and whatever the clock
    reads. -/
theorem timeout_lawful (m : Machine γ η) (name : String) (limit : Option Float)
    (success : Option Bool) (properties : List (String × PropertyValue)) (c : γ) (w : World η)
    (calls : List (Call × World.Change η)) :
    let s := Dict.writeAll configure properties (withSettings limit success)
    let beats := (Control.timeout s none).beats m name [c] w calls
    beats.map Beat.call = calls.map Prod.fst ∧
      ∀ before b after, beats = before ++ b :: after →
        ∀ now, b.call = .execute now → s.Lawful before.reverse now b := by
  intro s beats
  have hlimit : leastLimit ≤ s.limit :=
    leastLimit_le_configured (leastLimit_le_withSettings limit success) properties
  refine ⟨Control.map_call_beats .., fun before b after hbeats => ?_⟩
  have hstart : InStep s [] (Control.timeout s none) [c] := ⟨none, c, rfl, rfl, tracks_start rfl⟩
  have hlaw := Control.beats_law (fun past b => ∀ now, b.call = .execute now → s.Lawful past now b)
    (InStep s) (beat_lawful hlimit) calls hstart w hbeats
  rwa [List.append_nil] at hlaw

/-- A child that never ends its run. -/
def endless : Machine Unit Unit where
  tick _ _ w := ⟨.running, (), w⟩
  reset _ h := ((), h)
  cancel _ h := ((), h)

/-- The least limit, and a success when it is reached. -/
def hasty : Timeout := ⟨0.1, true⟩

/-- A node that was told a limit of no time has the least one.  Its run begins at zero, and expires
    with a success; the next one begins at an earlier time, since the clock was moved back. -/
theorem hasty_expires :
    let first : Beat :=
      ⟨.execute ⟨0, 0.0⟩, [.executed 0 .running], some .running, .timeout hasty (some 0.0)⟩
    let late : Beat := ⟨.execute ⟨1, 6.0⟩, [.cancelled 0], some .success, .timeout hasty none⟩
    let again : Beat :=
      ⟨.execute ⟨2, 2.0⟩, [.executed 0 .running], some .running, .timeout hasty (some 2.0)⟩
    Dict.writeAll configure [("success_on_timeout", .text "true")] (withSettings (some 0.0) none) =
        hasty ∧
      (Control.timeout hasty none).beats endless "hasty" [()] (.start ())
          [(.execute ⟨0, 0.0⟩, id), (.execute ⟨1, 6.0⟩, id), (.execute ⟨2, 2.0⟩, id)] =
        [first, late, again] ∧
      hasty.Lawful [first] ⟨1, 6.0⟩ late ∧ hasty.Lawful [late, first] ⟨2, 2.0⟩ again := by
  intro first late again
  have hset : Dict.writeAll configure [("success_on_timeout", .text "true")]
      (withSettings (some 0.0) none) = hasty := rfl
  have hbeats : (Control.timeout hasty none).beats endless "hasty" [()] (.start ())
      [(.execute ⟨0, 0.0⟩, id), (.execute ⟨1, 6.0⟩, id), (.execute ⟨2, 2.0⟩, id)] =
        [first, late, again] := rfl
  obtain ⟨-, hlaw⟩ := timeout_lawful endless "hasty" (some 0.0) none
    [("success_on_timeout", .text "true")] () (.start ())
    [(.execute ⟨0, 0.0⟩, id), (.execute ⟨1, 6.0⟩, id), (.execute ⟨2, 2.0⟩, id)]
  rw [hset] at hlaw
  exact ⟨hset, hbeats, hlaw [first] late [again] hbeats ⟨1, 6.0⟩ rfl,
    hlaw [first, late] again [] hbeats ⟨2, 2.0⟩ rfl⟩

end Timeout

end BehaviorTree
