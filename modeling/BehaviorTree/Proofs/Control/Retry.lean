import BehaviorTree.Proofs.Control.Deeds
import BehaviorTree.Proofs.Time

namespace BehaviorTree

/-!
# The runs of a retry node

What a retry node does on a tick is a function of the calls that it has got so far, of how its child
has answered, and of the clock.  Its counter and its flag hold no more than these say.

* `Retry.failures`, `Retry.counted`, `Retry.waitingSince` — what the calls so far say;
* `Retry.move` — what a retry node can do on a tick;
* `Retry.Lawful` — what it does on a tick after these calls;
* `Retry.beats_lawful` — it does that on every tick, whatever its child does.
-/

namespace Retry

variable {γ η : Type}

/-! ### What the calls so far say -/

/-- How often the child has failed in the current run. -/
def failures (past : List Beat) : Nat :=
  (currentRun past).countP fun b => b.childAnswer = some .failure

/-- The failures as a word counts them, which stays at the greatest word. -/
def counted (past : List Beat) : Nat := min (failures past) (UInt32.size - 1)

/-- When the child failed, if that was its last answer in the current run. -/
def waitingSince (past : List Beat) : Option Float :=
  ((currentRun past).find? (·.childAnswer.isSome)).bind fun b =>
    if b.childAnswer = some .failure then b.reading else none

/-- The latest call was a failure of the child. -/
def JustFailed (past : List Beat) : Prop :=
  ∃ last earlier, past = last :: earlier ∧ last.childAnswer = some .failure

section
variable {b : Beat}

theorem failures_of_failure (h : b.ends = false) (hb : b.childAnswer = some .failure)
    (past : List Beat) : failures (b :: past) = failures past + 1 := by
  simp [failures, currentRun_of_not_ends h, hb]

theorem failures_of_ne_failure {answer : Option Status} (h : b.ends = false)
    (hb : b.childAnswer = answer) (hne : answer ≠ some .failure) (past : List Beat) :
    failures (b :: past) = failures past := by
  simp [failures, currentRun_of_not_ends h, hb, hne]

theorem waitingSince_of_failure (h : b.ends = false) (hb : b.childAnswer = some .failure)
    (past : List Beat) : waitingSince (b :: past) = b.reading := by
  simp [waitingSince, currentRun_of_not_ends h, hb]

theorem waitingSince_of_running (h : b.ends = false) (hb : b.childAnswer = some .running)
    (past : List Beat) : waitingSince (b :: past) = none := by
  simp [waitingSince, currentRun_of_not_ends h, hb]

theorem waitingSince_of_idle (h : b.ends = false) (hb : b.childAnswer = none)
    (past : List Beat) : waitingSince (b :: past) = waitingSince past := by
  simp [waitingSince, currentRun_of_not_ends h, hb]

end

/-! ### One tick -/

/-- What comes of the child's answer to a try, with the failures before it. -/
def afterTry (now : Moment) (failures : UInt32) : Status → Status × Progress
  | .running => (.running, { failures })
  | .success => (.success, {})
  | .failure => (.running, { failures := bump failures, waitingSince := some now.now })

/-- The child is tried: the node does not wait, or it has waited for as long as it must. -/
def Due (s : Retry) (now : Moment) (p : Progress) : Prop :=
  p.waitingSince = none ∨
    ∃ since, p.waitingSince = some since ∧ ¬ s.budget < p.failures ∧ s.delayed now since = false

/-- What is done to a child before it is tried. -/
def renewal (waiting : Option Float) : List Deed := if waiting.isSome then [.reset 0] else []

/-- A tick on which the child is tried and answers. -/
def tryBeat (s : Retry) (now : Moment) (p : Progress) (answer : Status) : Beat :=
  ⟨.execute now, renewal p.waitingSince ++ [.executed 0 answer],
    some (afterTry now p.failures answer).1, .retry s (afterTry now p.failures answer).2⟩

/-- What a retry node can do on a tick. -/
inductive Move (s : Retry) (now : Moment) (p : Progress) : Beat → Progress → Prop
  /-- The child is tried. -/
  | tried (answer : Status) (hdue : s.Due now p) :
    Move s now p (tryBeat s now p answer) (afterTry now p.failures answer).2
  /-- The budget is used up. -/
  | spent (since : Float) (hwaiting : p.waitingSince = some since)
      (hspent : s.budget < p.failures) :
    Move s now p ⟨.execute now, [], some .failure, .retry s {}⟩ {}
  /-- The delay is not over yet. -/
  | delayed (since : Float) (hwaiting : p.waitingSince = some since)
      (hspent : ¬ s.budget < p.failures) (hdelayed : s.delayed now since = true) :
    Move s now p ⟨.execute now, [], some .running, .retry s p⟩ p

theorem attempt_cons (m : Machine γ η) (name : String) (now : Moment) (failures : UInt32) (c : γ)
    (cs : List γ) (w : World η) :
    attempt m name now failures (c :: cs) w =
      let o := m.tick now c w
      ⟨(afterTry now failures o.status).1,
        ((afterTry now failures o.status).2, o.next :: cs), o.world⟩ := by
  simp only [attempt]
  cases (m.tick now c w).status <;> rfl

/-- The child and the world as a try finds them. -/
def renewed (m : Machine γ η) (waiting : Option Float) (cs : List γ) (w : World η) :
    List γ × World η :=
  if waiting.isSome then m.resetAll cs w else (cs, w)

section
variable {s : Retry} {now : Moment} {p : Progress} (m : Machine γ η) (name : String) (cs : List γ)
  (w : World η)

theorem tick_of_due (h : s.Due now p) :
    tick m name now s p cs w =
      attempt m name now p.failures (renewed m p.waitingSince cs w).1
        (renewed m p.waitingSince cs w).2 := by
  obtain hnone | ⟨since, hsome, hspent, hdelayed⟩ := h
  · simp [tick, renewed, hnone]
  · simp [tick, renewed, hsome, hspent, hdelayed]

theorem tick_of_spent {since : Float} (hwaiting : p.waitingSince = some since)
    (hspent : s.budget < p.failures) :
    tick m name now s p cs w = ⟨.failure, ({}, cs), w⟩ := by
  simp [tick, hwaiting, hspent]

theorem tick_of_delayed {since : Float} (hwaiting : p.waitingSince = some since)
    (hspent : ¬ s.budget < p.failures) (hdelayed : s.delayed now since = true) :
    tick m name now s p cs w = ⟨.running, (p, cs), w⟩ := by
  simp [tick, hwaiting, hspent, hdelayed]

end

theorem move (m : Machine γ η) (name : String) (s : Retry) (p : Progress) (c : γ) (w : World η)
    (now : Moment) :
    ∃ p' c', Move s now p ((Control.retry s p).beat m name [c] w (.execute now)) p' ∧
      ((Control.retry s p).call m name [c] w (.execute now)).2.1 = (.retry s p', [c']) := by
  simp only [Control.beat, Control.deeds, Control.call, Control.tick]
  by_cases hdue : s.Due now p
  · have hone : ∃ d v, renewed m p.waitingSince [c] w = ([d], v) ∧
        renewed m.noting p.waitingSince (numbered [c]) (w.withNotes []) =
          ([(0, d)], v.withNotes (renewal p.waitingSince)) := by
      unfold renewed renewal
      cases p.waitingSince with
      | none => exact ⟨_, _, rfl, rfl⟩
      | some since => exact ⟨_, _, rfl, rfl⟩
    obtain ⟨d, v, hplain, hnoted⟩ := hone
    simp only [tick_of_due _ _ _ _ hdue, hplain, hnoted, attempt_cons, Outcome.map]
    exact ⟨_, _, .tried _ hdue, rfl⟩
  · cases hwaiting : p.waitingSince with
    | none => exact absurd (.inl hwaiting) hdue
    | some since =>
      by_cases hspent : s.budget < p.failures
      · simp only [tick_of_spent _ _ _ _ hwaiting hspent, Outcome.map]
        exact ⟨_, _, .spent since hwaiting hspent, rfl⟩
      · have hdelayed : s.delayed now since = true := by
          by_contra hover
          exact hdue (.inr ⟨since, hwaiting, hspent, by simpa using hover⟩)
        simp only [tick_of_delayed _ _ _ _ hwaiting hspent hdelayed, Outcome.map]
        exact ⟨_, _, .delayed since hwaiting hspent hdelayed, rfl⟩

/-! ### The law -/

/-- The child is to be tried, by the calls so far: the node does not wait, or it waits with its budget
    not used up, and the delay is none or over. -/
def MustTry (s : Retry) (past : List Beat) (now : Moment) : Prop :=
  waitingSince past = none ∨
    ∃ since, waitingSince past = some since ∧ counted past ≤ s.budget.toNat ∧
      (¬ 0.0 < s.delay ∨ s.delay ≤ now.elapsed since)

/-- What a retry node does on a tick, after the calls `past`. -/
structure Lawful (s : Retry) (past : List Beat) (now : Moment) (b : Beat) : Prop where
  /-- The child is executed exactly when it is to be tried. -/
  tried_iff : b.childAnswer.isSome = true ↔ s.MustTry past now
  /-- It is executed once; a node that waits resets it just before, once.  Nothing else is done. -/
  deeds_eq : b.deeds =
    match b.childAnswer with
    | none => []
    | some answer =>
      if (waitingSince past).isSome then [.reset 0, .executed 0 answer]
      else [.executed 0 answer]
  /-- A failure of the child is answered with running, and the node waits from then on. -/
  waits : b.childAnswer = some .failure →
    b.answer = some .running ∧ waitingSince (b :: past) = some now.now
  /-- The node succeeds exactly when the child does. -/
  success_iff : b.answer = some .success ↔ b.childAnswer = some .success
  /-- The node fails exactly after one failure of the child more than the budget. -/
  failure_iff : s.budget.toNat < UInt32.size - 1 →
    (b.answer = some .failure ↔ JustFailed past ∧ failures past = s.budget.toNat + 1)
  /-- With the greatest budget it never fails. -/
  never_fails : s.budget.toNat = UInt32.size - 1 → b.answer ≠ some .failure
  /-- A node that fails leaves its child alone. -/
  failure_idle : b.answer = some .failure → b.deeds = []
  /-- A success or failure starts the count again. -/
  restarts : b.answer = some .success ∨ b.answer = some .failure → b.control = .retry s {}
  /-- There is no other answer than these and running. -/
  running : b.answer ≠ some .success → b.answer ≠ some .failure → b.answer = some .running
  /-- The counter and the flag hold what the calls say. -/
  holds : ∃ p, b.control = .retry s p ∧ p.failures.toNat = counted (b :: past) ∧
    p.waitingSince = waitingSince (b :: past)

/-- The progress of a node holds what the calls so far say.  When the failures are more than the
    budget, the last call was the last failure. -/
structure Tracks (s : Retry) (past : List Beat) (p : Progress) : Prop where
  failures : p.failures.toNat = counted past
  waiting : p.waitingSince = waitingSince past
  spent : s.budget.toNat < UInt32.size - 1 → s.budget.toNat < Retry.failures past →
    Retry.failures past = s.budget.toNat + 1 ∧ JustFailed past ∧ p.waitingSince.isSome = true

theorem tracks_start (s : Retry) {past : List Beat} (h : currentRun past = []) :
    Tracks s past {} where
  failures := by simp [counted, Retry.failures, h]
  waiting := by simp [waitingSince, h]
  spent := by simp [Retry.failures, h]

theorem delayed_eq_false_iff (s : Retry) (now : Moment) (since : Float) :
    s.delayed now since = false ↔ ¬ 0.0 < s.delay ∨ s.delay ≤ now.elapsed since := by
  by_cases hpositive : 0.0 < s.delay
  · have hdelay : IsNumber s.delay := (isNumber_of_le (le_of_lt hpositive)).2
    rw [← not_lt_iff (isNumber_elapsed now since) hdelay]
    simp [delayed, hpositive]
  · simp [delayed, hpositive]

section
variable {s : Retry} {past : List Beat} {p : Progress} {now : Moment}

theorem Tracks.not_spent_iff (h : Tracks s past p) :
    ¬ s.budget < p.failures ↔ counted past ≤ s.budget.toNat := by
  rw [UInt32.lt_iff_toNat_lt, h.failures, Nat.not_lt]

theorem Tracks.due_iff (h : Tracks s past p) : s.Due now p ↔ s.MustTry past now := by
  simp only [Due, MustTry, h.waiting, h.not_spent_iff, delayed_eq_false_iff]

/-- As long as the child is to be tried, the failures are within the budget. -/
theorem Tracks.failures_le (h : Tracks s past p) (hbudget : s.budget.toNat < UInt32.size - 1)
    (hnext : p.waitingSince = none ∨ ¬ s.budget < p.failures) :
    Retry.failures past ≤ s.budget.toNat := by
  obtain hnone | hle := hnext
  · by_contra hgt
    have hwaiting := (h.spent hbudget (by omega)).2.2
    simp [hnone] at hwaiting
  · rw [h.not_spent_iff, counted] at hle
    omega

theorem Due.within (hdue : s.Due now p) : p.waitingSince = none ∨ ¬ s.budget < p.failures :=
  hdue.imp_right fun ⟨_, _, hle, _⟩ => hle

end

section
variable {s : Retry} {past : List Beat} {p p' : Progress} {now : Moment} {b : Beat}

theorem childAnswer_tryBeat (s : Retry) (now : Moment) (p : Progress) (answer : Status) :
    (tryBeat s now p answer).childAnswer = some answer := by
  unfold Beat.childAnswer tryBeat renewal
  cases p.waitingSince <;> rfl

/-- A try keeps the progress and the calls in step. -/
theorem Tracks.tried (h : Tracks s past p) (hdue : s.Due now p) (answer : Status) :
    Tracks s (tryBeat s now p answer :: past) (afterTry now p.failures answer).2 := by
  have hanswer := childAnswer_tryBeat s now p answer
  cases answer with
  | success => exact tracks_start s (currentRun_of_ends rfl past)
  | running =>
    have hfailures := failures_of_ne_failure rfl hanswer (by decide) past
    refine ⟨?_, (waitingSince_of_running rfl hanswer past).symm, fun hbudget hgt => ?_⟩
    · rw [counted, hfailures]
      exact h.failures
    · rw [hfailures] at hgt
      exact absurd (h.failures_le hbudget hdue.within) (Nat.not_le.2 hgt)
  | failure =>
    have hfailures := failures_of_failure rfl hanswer past
    refine ⟨?_, (waitingSince_of_failure rfl hanswer past).symm, fun hbudget hgt => ?_⟩
    · have hcount := h.failures
      simp only [afterTry, toNat_bump, counted, hfailures, hcount]
      omega
    · have hle := h.failures_le hbudget hdue.within
      rw [hfailures] at hgt ⊢
      exact ⟨by omega, ⟨_, _, rfl, hanswer⟩, rfl⟩

/-- What a retry node does keeps its progress and the calls in step. -/
theorem Move.tracks (h : Tracks s past p) (hmove : Move s now p b p') : Tracks s (b :: past) p' := by
  cases hmove with
  | tried answer hdue => exact h.tried hdue answer
  | spent => exact tracks_start s (currentRun_of_ends rfl past)
  | delayed since hwaiting hspent =>
    have hidle : Beat.childAnswer ⟨.execute now, [], some .running, .retry s p⟩ = none := rfl
    have hfailures := failures_of_ne_failure rfl hidle (by decide) past
    refine ⟨?_, ?_, fun hbudget hgt => ?_⟩
    · rw [counted, hfailures]
      exact h.failures
    · rw [waitingSince_of_idle rfl hidle past]
      exact h.waiting
    · rw [hfailures] at hgt
      exact absurd (h.failures_le hbudget (.inr hspent)) (Nat.not_le.2 hgt)

theorem Move.control_eq (hmove : Move s now p b p') : b.control = .retry s p' := by
  cases hmove <;> rfl

theorem lawful_tryBeat (h : Tracks s past p) (hdue : s.Due now p) (answer : Status) :
    s.Lawful past now (s.tryBeat now p answer) := by
  have hanswer := childAnswer_tryBeat s now p answer
  have hnext := h.tried hdue answer
  have hnever : (s.tryBeat now p answer).answer ≠ some .failure := by
    cases answer <;> simp [tryBeat, afterTry]
  exact
    { tried_iff := by simp [hanswer, h.due_iff.1 hdue]
      deeds_eq := by
        rw [hanswer, ← h.waiting]
        cases hwaiting : p.waitingSince <;> simp [tryBeat, renewal, hwaiting]
      waits := fun hfailure => by
        obtain rfl : answer = .failure := by simpa [hanswer] using hfailure
        exact ⟨rfl, hnext.waiting.symm⟩
      success_iff := by
        rw [hanswer]
        cases answer <;> simp [tryBeat, afterTry]
      failure_iff := fun hbudget => by
        have hle := h.failures_le hbudget hdue.within
        exact iff_of_false hnever fun hspent => by omega
      never_fails := fun _ => hnever
      failure_idle := fun hfailure => absurd hfailure hnever
      restarts := by
        cases answer <;> simp [tryBeat, afterTry]
      running := by
        cases answer <;> simp [tryBeat, afterTry]
      holds := ⟨_, rfl, hnext.failures, hnext.waiting⟩ }

theorem lawful_spent (h : Tracks s past p) {since : Float} (hwaiting : p.waitingSince = some since)
    (hspent : s.budget < p.failures) :
    s.Lawful past now ⟨.execute now, [], some .failure, .retry s {}⟩ := by
  have hcounted : s.budget.toNat < counted past := by
    rwa [← h.failures, ← UInt32.lt_iff_toNat_lt]
  have hnot : ¬ s.Due now p := by simp [Due, hwaiting, hspent]
  have hnext := tracks_start s
    (currentRun_of_ends (b := ⟨.execute now, [], some .failure, .retry s {}⟩) rfl past)
  exact
    { tried_iff := iff_of_false (by simp [Beat.childAnswer]) (mt h.due_iff.2 hnot)
      deeds_eq := rfl
      waits := fun hfailure => by simp [Beat.childAnswer] at hfailure
      success_iff := by simp [Beat.childAnswer]
      failure_iff := fun hbudget => by
        have hgt : s.budget.toNat < Retry.failures past := by
          unfold counted at hcounted
          omega
        obtain ⟨heq, hlast, -⟩ := h.spent hbudget hgt
        exact iff_of_true rfl ⟨hlast, heq⟩
      never_fails := fun hbudget => by
        unfold counted at hcounted
        omega
      failure_idle := fun _ => rfl
      restarts := fun _ => rfl
      running := fun _ hnever => absurd rfl hnever
      holds := ⟨_, rfl, hnext.failures, hnext.waiting⟩ }

theorem lawful_delayed (h : Tracks s past p) {since : Float}
    (hwaiting : p.waitingSince = some since) (hspent : ¬ s.budget < p.failures)
    (hdelayed : s.delayed now since = true) :
    s.Lawful past now ⟨.execute now, [], some .running, .retry s p⟩ := by
  have hnot : ¬ s.Due now p := by simp [Due, hwaiting, hdelayed]
  have hnext := Move.tracks h (.delayed since hwaiting hspent hdelayed)
  exact
    { tried_iff := iff_of_false (by simp [Beat.childAnswer]) (mt h.due_iff.2 hnot)
      deeds_eq := rfl
      waits := fun hfailure => by simp [Beat.childAnswer] at hfailure
      success_iff := by simp [Beat.childAnswer]
      failure_iff := fun hbudget => by
        have hle := h.failures_le hbudget (.inr hspent)
        exact iff_of_false (by simp) fun hlast => by omega
      never_fails := fun _ => by simp
      failure_idle := fun hfailure => by simp at hfailure
      restarts := fun hends => by simp at hends
      running := fun _ _ => rfl
      holds := ⟨_, rfl, hnext.failures, hnext.waiting⟩ }

theorem Move.lawful (h : Tracks s past p) (hmove : Move s now p b p') : s.Lawful past now b := by
  cases hmove with
  | tried answer hdue => exact lawful_tryBeat h hdue answer
  | spent since hwaiting hspent => exact lawful_spent h hwaiting hspent
  | delayed since hwaiting hspent hdelayed => exact lawful_delayed h hwaiting hspent hdelayed

end

/-! ### Sequences of calls -/

/-- A retry node with one child, in step with the calls so far. -/
def InStep (s : Retry) (past : List Beat) (control : Control) (cs : List γ) : Prop :=
  ∃ p c, control = .retry s p ∧ cs = [c] ∧ Tracks s past p

/-- Every tick is lawful, and the node stays in step with the calls.  A reset or a cancel starts it
    again. -/
theorem beat_lawful {m : Machine γ η} {name : String} {s : Retry} {past : List Beat}
    {control : Control} {cs : List γ} (h : InStep s past control cs) (w : World η) (call : Call) :
    let b := control.beat m name cs w call
    (∀ now, b.call = .execute now → s.Lawful past now b) ∧
      InStep s (b :: past) b.control (control.call m name cs w call).2.1.2 := by
  obtain ⟨p, c, rfl, rfl, htracks⟩ := h
  cases call with
  | execute now =>
    obtain ⟨p', c', hmove, hnext⟩ := move m name s p c w now
    refine ⟨?_, p', c', hmove.control_eq, by rw [hnext], hmove.tracks htracks⟩
    rintro _ ⟨rfl⟩
    exact hmove.lawful htracks
  | reset => exact ⟨nofun, {}, _, rfl, rfl, tracks_start s (currentRun_of_ends rfl past)⟩
  | cancel => exact ⟨nofun, {}, _, rfl, rfl, tracks_start s (currentRun_of_ends rfl past)⟩

/-- On every tick of every sequence of calls to a retry node with one child, from a reset state, it
    does what the calls before the tick say, whatever the child does and whatever the clock reads. -/
theorem beats_lawful (m : Machine γ η) (name : String) (s : Retry) (p : Progress) (c : γ)
    (w : World η) (calls : List (Call × World.Change η)) :
    let beats := (Control.retry s p).restart.beats m name [c] w calls
    beats.map Beat.call = calls.map Prod.fst ∧
      ∀ before b after, beats = before ++ b :: after →
        ∀ now, b.call = .execute now → s.Lawful before.reverse now b := by
  refine ⟨Control.map_call_beats .., fun before b after hbeats => ?_⟩
  have hstart : InStep s [] (Control.retry s p).restart [c] :=
    ⟨{}, c, rfl, rfl, tracks_start s rfl⟩
  have hlaw := Control.beats_law (fun past b => ∀ now, b.call = .execute now → s.Lawful past now b)
    (InStep s) beat_lawful calls hstart w hbeats
  rwa [List.append_nil] at hlaw

/-- A child that always fails. -/
def failing : Machine Unit Unit where
  tick _ _ w := ⟨.failure, (), w⟩
  reset _ h := ((), h)
  cancel _ h := ((), h)

/-- One failure is tried again, after five seconds. -/
def patient : Retry := { budget := 1, delay := 5.0 }

/-- The second failure comes when the five seconds are over.  The tick after it is the failure of the
    node, though its delay is not over. -/
theorem patient_fails :
    let first : Beat :=
      ⟨.execute ⟨0, 0.0⟩, [.executed 0 .failure], some .running, .retry patient ⟨1, some 0.0⟩⟩
    let early : Beat := ⟨.execute ⟨1, 1.0⟩, [], some .running, .retry patient ⟨1, some 0.0⟩⟩
    let again : Beat :=
      ⟨.execute ⟨2, 5.0⟩, [.reset 0, .executed 0 .failure], some .running,
        .retry patient ⟨2, some 5.0⟩⟩
    let last : Beat := ⟨.execute ⟨3, 6.0⟩, [], some .failure, .retry patient {}⟩
    (Control.retry patient {}).restart.beats failing "again" [()] (.start ())
        [(.execute ⟨0, 0.0⟩, id), (.execute ⟨1, 1.0⟩, id), (.execute ⟨2, 5.0⟩, id),
          (.execute ⟨3, 6.0⟩, id)] = [first, early, again, last] ∧
      patient.Lawful [again, early, first] ⟨3, 6.0⟩ last := by
  intro first early again last
  have hbeats : (Control.retry patient {}).restart.beats failing "again" [()] (.start ())
      [(.execute ⟨0, 0.0⟩, id), (.execute ⟨1, 1.0⟩, id), (.execute ⟨2, 5.0⟩, id),
        (.execute ⟨3, 6.0⟩, id)] = [first, early, again, last] := rfl
  exact ⟨hbeats, (beats_lawful failing "again" patient {} () (.start ()) _).2
    [first, early, again] last [] hbeats ⟨3, 6.0⟩ rfl⟩

end Retry

end BehaviorTree
