import BehaviorTree.Proofs.Control.Deeds

namespace BehaviorTree

/-!
# The runs of a repeater

A repeater counts the completed runs of its child since it was last reset or cancelled; its own answers
do not start the count again.  What it does on a tick is a function of this number, and its counter,
though it stops at the greatest word, is as good as the number.

* `Repeat.completions` — the completed runs, by the calls so far;
* `Repeat.move` — what a repeater can do on a tick;
* `Repeat.Lawful` — what it does on a tick after these calls;
* `Repeat.repeater_lawful` — it does that on every tick, whatever its child does.
-/

namespace Repeat

variable {γ η : Type}

/-! ### What the calls so far say -/

/-- The calls since the last reset or cancel, which alone have no answer.  The latest call is the first
    of the list. -/
def sinceRestart (past : List Beat) : List Beat := past.takeWhile (·.answer.isSome)

/-- How often the child has completed a run since then. -/
def completions (past : List Beat) : Nat :=
  (sinceRestart past).countP fun b => b.childAnswer.any Status.isTerminal

/-- The completed runs as a word counts them, which stays at the greatest word. -/
def counted (past : List Beat) : Nat := min (completions past) (UInt32.size - 1)

/-- The completed runs are as many as were asked for. -/
def Done (s : Repeat) (past : List Beat) : Prop :=
  ∃ n, s.limit = some n ∧ n.toNat ≤ completions past

section
variable {b : Beat}

theorem completions_of_restart (h : b.answer = none) (past : List Beat) :
    completions (b :: past) = 0 := by
  simp [completions, sinceRestart, h]

theorem completions_of_completed {answer : Status} (h : b.answer.isSome = true)
    (hb : b.childAnswer = some answer) (hend : answer.isTerminal = true) (past : List Beat) :
    completions (b :: past) = completions past + 1 := by
  simp [completions, sinceRestart, h, hb, hend]

theorem completions_of_not_completed (h : b.answer.isSome = true)
    (hb : b.childAnswer.any Status.isTerminal = false) (past : List Beat) :
    completions (b :: past) = completions past := by
  simp [completions, sinceRestart, h, hb]

end

/-! ### One tick -/

/-- An answer that completes a run of the child and does not end the repeater by itself. -/
def GoesOn (s : Repeat) (answer : Status) : Prop :=
  answer = .success ∨ answer = .failure ∧ s.stopOnFailure = false

theorem GoesOn.isTerminal {s : Repeat} {answer : Status} (h : s.GoesOn answer) :
    answer.isTerminal = true := by
  rcases h with rfl | ⟨rfl, -⟩ <;> rfl

/-- What is done to the child between two runs. -/
def renewal (s : Repeat) : List Deed := if s.resetChild then [.reset 0] else []

/-- What a repeater that has counted `count` completed runs can do on a tick. -/
inductive Move (s : Repeat) (now : Moment) (count : UInt32) : Beat → UInt32 → Prop
  /-- There were enough of them before. -/
  | done (hdone : s.reached count = true) :
    Move s now count ⟨.execute now, [], some .success, .repeater s count⟩ count
  /-- The child runs. -/
  | running (hopen : s.reached count = false) :
    Move s now count
      ⟨.execute now, [.executed 0 .running], some .running, .repeater s count⟩ count
  /-- A failure of the child ends the repeater. -/
  | stopped (hopen : s.reached count = false) (hstop : s.stopOnFailure = true) :
    Move s now count
      ⟨.execute now, [.executed 0 .failure], some .failure, .repeater s (bump count)⟩ (bump count)
  /-- The child completes the last run. -/
  | last (answer : Status) (hopen : s.reached count = false) (hgo : s.GoesOn answer)
      (hlast : s.reached (bump count) = true) :
    Move s now count
      ⟨.execute now, [.executed 0 answer], some .success, .repeater s (bump count)⟩ (bump count)
  /-- The child completes a run before the last. -/
  | again (answer : Status) (hopen : s.reached count = false) (hgo : s.GoesOn answer)
      (hmore : s.reached (bump count) = false) :
    Move s now count
      ⟨.execute now, .executed 0 answer :: s.renewal, some .running, .repeater s (bump count)⟩
      (bump count)

theorem tick_of_goesOn (m : Machine γ η) (name : String) (now : Moment) {s : Repeat} {count : UInt32}
    {c : γ} {w : World η} (hopen : s.reached count = false)
    (hgo : s.GoesOn (m.tick now c w).status) :
    tick m name now s count [c] w =
      complete m s (bump count) [(m.tick now c w).next] (m.tick now c w).world := by
  rcases hgo with hanswer | ⟨hanswer, hstop⟩
  · simp [tick, hopen, hanswer]
  · simp [tick, hopen, hanswer, hstop]

theorem move (m : Machine γ η) (name : String) (s : Repeat) (count : UInt32) (c : γ) (w : World η)
    (now : Moment) :
    ∃ count' c',
      Move s now count ((Control.repeater s count).beat m name [c] w (.execute now)) count' ∧
      ((Control.repeater s count).call m name [c] w (.execute now)).2.1 =
        (.repeater s count', [c']) := by
  have hnumbered : numbered [c] = [(0, c)] := rfl
  simp only [Control.beat, Control.deeds, Control.call, Control.tick, hnumbered]
  cases hopen : s.reached count with
  | true =>
    simp only [tick, hopen, if_true, Outcome.map]
    exact ⟨_, _, .done hopen, rfl⟩
  | false =>
    by_cases hgo : s.GoesOn (m.tick now c w).status
    · have hplain := tick_of_goesOn m name now hopen hgo
      have hnoted := tick_of_goesOn m.noting name now (c := (0, c)) (w := w.withNotes []) hopen hgo
      simp only [hplain, hnoted, complete]
      cases hlast : s.reached (bump count) with
      | true => exact ⟨_, _, .last _ hopen hgo hlast, rfl⟩
      | false =>
        have hagain : Move s now count _ _ := .again _ hopen hgo hlast
        unfold renewal at hagain
        cases hreset : s.resetChild with
        | true => exact ⟨_, _, by rwa [hreset] at hagain, rfl⟩
        | false => exact ⟨_, _, by rwa [hreset] at hagain, rfl⟩
    · simp only [tick, hopen, Machine.noting, World.plain_withNotes]
      generalize m.tick now c w = o at hgo
      obtain ⟨answer, next, world⟩ := o
      cases answer with
      | running => exact ⟨_, _, .running hopen, rfl⟩
      | success => exact absurd (.inl rfl) hgo
      | failure =>
        have hstop : s.stopOnFailure = true := by simpa [GoesOn] using hgo
        simp only [hstop, if_true]
        exact ⟨_, _, .stopped hopen hstop, rfl⟩

/-! ### The law -/

/-- What a repeater does on a tick, after the calls `past`. -/
structure Lawful (s : Repeat) (past : List Beat) (b : Beat) : Prop where
  /-- When enough runs are completed the node succeeds and leaves its child alone. -/
  done : s.Done past → b.deeds = [] ∧ b.answer = some .success
  /-- Before that the child is executed; the next four say what is done besides, and that it is executed
      once. -/
  executes : ¬ s.Done past → b.childAnswer.isSome = true
  /-- A child that runs is left alone, the node runs as well, and nothing is counted. -/
  running : b.childAnswer = some .running →
    b.deeds = [.executed 0 .running] ∧ b.answer = some .running ∧
      completions (b :: past) = completions past
  /-- A failure of the child ends the node with a failure, if it was told so. -/
  stops : s.stopOnFailure = true → b.childAnswer = some .failure →
    b.deeds = [.executed 0 .failure] ∧ b.answer = some .failure
  /-- Otherwise the run that makes them enough is a success, after which the child is not reset. -/
  last : ∀ answer n, b.childAnswer = some answer → s.GoesOn answer → s.limit = some n →
    completions past + 1 = n.toNat → b.deeds = [.executed 0 answer] ∧ b.answer = some .success
  /-- Every earlier run is answered with running, and the child is reset once, if it is to be. -/
  again : ∀ answer, b.childAnswer = some answer → s.GoesOn answer →
    (∀ n, s.limit = some n → completions past + 1 < n.toNat) →
      b.deeds = .executed 0 answer :: (if s.resetChild then [.reset 0] else []) ∧
        b.answer = some .running
  /-- A success and a failure of the child are counted. -/
  counts : ∀ answer, b.childAnswer = some answer → answer.isTerminal = true →
    completions (b :: past) = completions past + 1
  /-- Without a limit the node never succeeds. -/
  endless : s.limit = none → b.answer ≠ some .success
  /-- The counter holds what the calls say. -/
  holds : ∃ count, b.control = .repeater s count ∧ count.toNat = counted (b :: past)

section
variable {s : Repeat} {past : List Beat} {count count' : UInt32} {now : Moment} {b : Beat}

/-- To a limit, which is a word, the counter is as good as the number of completed runs. -/
theorem reached_iff {completed : Nat} (h : count.toNat = min completed (UInt32.size - 1)) :
    s.reached count = true ↔ ∃ n, s.limit = some n ∧ n.toNat ≤ completed := by
  simp only [reached, Option.any_eq_true, decide_eq_true_eq, UInt32.le_iff_toNat_le, h]
  apply exists_congr
  intro n
  -- a counter that has stopped at the greatest word has reached every limit
  have hword := n.toNat_lt
  apply and_congr_right
  intro _
  simp only [UInt32.size]
  omega

theorem toNat_bump_counted (h : count.toNat = counted past) :
    (bump count).toNat = min (completions past + 1) (UInt32.size - 1) := by
  rw [toNat_bump, h, counted]
  omega

theorem Move.control_eq (hmove : Move s now count b count') : b.control = .repeater s count' := by
  cases hmove <;> rfl

/-- What a repeater does keeps its counter and the calls in step. -/
theorem Move.tracks (h : count.toNat = counted past) (hmove : Move s now count b count') :
    count'.toNat = counted (b :: past) := by
  cases hmove with
  | done | running => rwa [counted, completions_of_not_completed rfl rfl]
  | stopped =>
    rw [counted, completions_of_completed rfl rfl rfl]
    exact toNat_bump_counted h
  | last answer _ hgo | again answer _ hgo =>
    rw [counted, completions_of_completed rfl rfl hgo.isTerminal]
    exact toNat_bump_counted h

theorem Move.answered (hmove : Move s now count b count') : b.answer.isSome = true := by
  cases hmove <;> rfl

theorem Move.of_reached (hmove : Move s now count b count') (h : s.reached count = true) :
    b.deeds = [] ∧ b.answer = some .success := by
  cases hmove with
  | done => exact ⟨rfl, rfl⟩
  | running hopen | stopped hopen | last _ hopen | again _ hopen => simp [h] at hopen

theorem Move.of_not_reached (hmove : Move s now count b count') (h : ¬ s.reached count = true) :
    b.childAnswer.isSome = true := by
  cases hmove with
  | done hdone => exact absurd hdone h
  | running | stopped | last | again => rfl

theorem Move.of_running (hmove : Move s now count b count') (hb : b.childAnswer = some .running) :
    b.deeds = [.executed 0 .running] ∧ b.answer = some .running := by
  cases hmove with
  | running => exact ⟨rfl, rfl⟩
  | done | stopped => simp [Beat.childAnswer] at hb
  | last answer _ hgo | again answer _ hgo =>
    obtain rfl : answer = .running := Option.some.inj hb
    exact absurd hgo.isTerminal (by decide)

theorem Move.of_stopped (hmove : Move s now count b count') (hstop : s.stopOnFailure = true)
    (hb : b.childAnswer = some .failure) :
    b.deeds = [.executed 0 .failure] ∧ b.answer = some .failure := by
  cases hmove with
  | stopped => exact ⟨rfl, rfl⟩
  | done | running => simp [Beat.childAnswer] at hb
  | last answer _ hgo | again answer _ hgo =>
    obtain rfl : answer = .failure := Option.some.inj hb
    simp [GoesOn, hstop] at hgo

/-- Whether a completed run was the last is seen from the counter after it. -/
theorem Move.of_goesOn (hmove : Move s now count b count') {answer : Status}
    (hb : b.childAnswer = some answer) (hgo : s.GoesOn answer) :
    if s.reached (bump count) then b.deeds = [.executed 0 answer] ∧ b.answer = some .success
    else b.deeds = .executed 0 answer :: s.renewal ∧ b.answer = some .running := by
  cases hmove with
  | done => simp [Beat.childAnswer] at hb
  | running =>
    obtain rfl : .running = answer := Option.some.inj hb
    exact absurd hgo.isTerminal (by decide)
  | stopped hopen hstop =>
    obtain rfl : .failure = answer := Option.some.inj hb
    simp [GoesOn, hstop] at hgo
  | last _ _ _ hlast =>
    obtain rfl := Option.some.inj hb
    rw [if_pos hlast]
    exact ⟨rfl, rfl⟩
  | again _ _ _ hmore =>
    obtain rfl := Option.some.inj hb
    rw [if_neg (by simp [hmore])]
    exact ⟨rfl, rfl⟩

theorem Move.reached_of_success (hmove : Move s now count b count')
    (h : b.answer = some .success) : s.reached count' = true := by
  cases hmove with
  | done hdone => exact hdone
  | last _ _ _ hlast => exact hlast
  | running | stopped | again => simp at h

theorem Move.lawful (h : count.toNat = counted past) (hmove : Move s now count b count') :
    s.Lawful past b := by
  have hdone : s.reached count = true ↔ s.Done past := reached_iff h
  have hlast := reached_iff (s := s) (toNat_bump_counted h)
  exact
    { done := fun hend => hmove.of_reached (hdone.2 hend)
      executes := fun hopen => hmove.of_not_reached (mt hdone.1 hopen)
      running := fun hb =>
        ⟨(hmove.of_running hb).1, (hmove.of_running hb).2,
          completions_of_not_completed hmove.answered (by rw [hb]; rfl) past⟩
      stops := fun hstop hb => hmove.of_stopped hstop hb
      last := fun answer n hb hgo hn heq => by
        have hanswer := hmove.of_goesOn hb hgo
        rwa [if_pos (hlast.2 ⟨n, hn, Nat.le_of_eq heq.symm⟩)] at hanswer
      again := fun answer hb hgo hmore => by
        have hopen : ¬ s.reached (bump count) = true := fun hreached => by
          obtain ⟨n, hn, hle⟩ := hlast.1 hreached
          exact absurd (hmore n hn) (Nat.not_lt.2 hle)
        have hanswer := hmove.of_goesOn hb hgo
        rwa [if_neg hopen] at hanswer
      counts := fun answer hb hend => completions_of_completed hmove.answered hb hend past
      endless := fun hnone hsuccess => by
        have hreached := hmove.reached_of_success hsuccess
        simp [reached, hnone] at hreached
      holds := ⟨count', hmove.control_eq, hmove.tracks h⟩ }

end

/-! ### Sequences of calls -/

/-- A repeater with one child, in step with the calls so far. -/
def InStep (s : Repeat) (past : List Beat) (control : Control) (cs : List γ) : Prop :=
  ∃ count c, control = .repeater s count ∧ cs = [c] ∧ count.toNat = counted past

/-- Every tick is lawful, and the node stays in step with the calls.  A reset or a cancel starts the
    count again. -/
theorem beat_lawful {m : Machine γ η} {name : String} {s : Repeat} {past : List Beat}
    {control : Control} {cs : List γ} (h : InStep s past control cs) (w : World η) (call : Call) :
    let b := control.beat m name cs w call
    (∀ now, b.call = .execute now → s.Lawful past b) ∧
      InStep s (b :: past) b.control (control.call m name cs w call).2.1.2 := by
  obtain ⟨count, c, rfl, rfl, hcount⟩ := h
  cases call with
  | execute now =>
    obtain ⟨count', c', hmove, hnext⟩ := move m name s count c w now
    exact ⟨fun _ _ => hmove.lawful hcount, count', c', hmove.control_eq, by rw [hnext],
      hmove.tracks hcount⟩
  | reset => exact ⟨nofun, 0, _, rfl, rfl, by rw [counted, completions_of_restart rfl]; rfl⟩
  | cancel => exact ⟨nofun, 0, _, rfl, rfl, by rw [counted, completions_of_restart rfl]; rfl⟩

/-- On every tick of every sequence of calls to a repeater with one child, from a reset or a cancelled
    state, it does what the calls before the tick say, whatever the child does. -/
theorem repeater_lawful (m : Machine γ η) (name : String) (s : Repeat) (count : UInt32) (c : γ)
    (w : World η) (calls : List (Call × World.Change η)) :
    ∀ start ∈ [(Control.repeater s count).restart, (Control.repeater s count).abandon],
      let beats := start.beats m name [c] w calls
      beats.map Beat.call = calls.map Prod.fst ∧
        ∀ before b after, beats = before ++ b :: after →
          ∀ now, b.call = .execute now → s.Lawful before.reverse b := by
  intro start hstart
  obtain rfl : start = .repeater s 0 := by simpa [Control.restart, Control.abandon] using hstart
  refine ⟨Control.map_call_beats .., fun before b after hbeats => ?_⟩
  have hbegin : InStep s [] (Control.repeater s 0) [c] := ⟨0, c, rfl, rfl, rfl⟩
  have hlaw := Control.beats_law (fun past b => ∀ now, b.call = .execute now → s.Lawful past b)
    (InStep s) beat_lawful calls hbegin w hbeats
  rwa [List.append_nil] at hlaw

/-- A child that fails on the first tick, runs on the second and succeeds on all later ones. -/
def improving : Machine Unit Unit where
  tick now _ w := ⟨match now.tick with | 0 => .failure | 1 => .running | _ => .success, (), w⟩
  reset _ h := ((), h)
  cancel _ h := ((), h)

/-- Two runs, failed ones included. -/
def twice : Repeat := { limit := some 2 }

/-- The failure counts and the child is reset, and with the success the two runs are completed. -/
theorem twice_succeeds :
    let failed : Beat :=
      ⟨.execute ⟨0, 0.0⟩, [.executed 0 .failure, .reset 0], some .running, .repeater twice 1⟩
    let between : Beat :=
      ⟨.execute ⟨1, 0.0⟩, [.executed 0 .running], some .running, .repeater twice 1⟩
    let last : Beat :=
      ⟨.execute ⟨2, 0.0⟩, [.executed 0 .success], some .success, .repeater twice 2⟩
    let idle : Beat := ⟨.execute ⟨3, 0.0⟩, [], some .success, .repeater twice 2⟩
    (Control.repeater twice 7).abandon.beats improving "twice" [()] (.start ())
        [(.execute ⟨0, 0.0⟩, id), (.execute ⟨1, 0.0⟩, id), (.execute ⟨2, 0.0⟩, id),
          (.execute ⟨3, 0.0⟩, id)] = [failed, between, last, idle] ∧
      twice.Lawful [between, failed] last ∧ twice.Lawful [last, between, failed] idle := by
  intro failed between last idle
  have hbeats : (Control.repeater twice 7).abandon.beats improving "twice" [()] (.start ())
      [(.execute ⟨0, 0.0⟩, id), (.execute ⟨1, 0.0⟩, id), (.execute ⟨2, 0.0⟩, id),
        (.execute ⟨3, 0.0⟩, id)] = [failed, between, last, idle] := rfl
  obtain ⟨-, hlaw⟩ := repeater_lawful improving "twice" twice 7 () (.start ())
    [(.execute ⟨0, 0.0⟩, id), (.execute ⟨1, 0.0⟩, id), (.execute ⟨2, 0.0⟩, id),
      (.execute ⟨3, 0.0⟩, id)] (Control.repeater twice 7).abandon (by simp)
  exact ⟨hbeats, hlaw [failed, between] last [idle] hbeats ⟨2, 0.0⟩ rfl,
    hlaw [failed, between, last] idle [] hbeats ⟨3, 0.0⟩ rfl⟩

end Repeat

end BehaviorTree
