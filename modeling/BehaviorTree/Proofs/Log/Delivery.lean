import BehaviorTree.World
import Mathlib.Logic.Basic

namespace BehaviorTree

/-!
# The delivery of records

A record that is emitted goes to the history on the blackboard, which may give up older records for
it, and to the sink, whatever the history does with it.  Between the records the history can be
drained, and the blackboard can be written under other keys, that of the sink among them.

* `Log.History.Keeps` — what a history holds of the records since it was empty: the most recent
  ones, as many as it has room for; `keeps_push` and `keeps_drain` keep this up;
* `World.useAll_delivers` — for any sequence of uses: what the history and the drained lists hold, who
  received which records, and what is under the other keys.
-/

namespace Log.History

/-- The most recent records, as many as there is room for. -/
def latest (capacity : Option Nat) (rs : List Record) : List Record :=
  match capacity with
  | none => rs
  | some c => rs.drop (rs.length - c)

/-- Whether a history holds the most recent of the records `rs`, and no others. -/
def Keeps (h : History) (rs : List Record) : Prop := h.records = latest h.capacity rs

/-- Whether the records of a history are within its capacity. -/
def Fits (h : History) : Prop := ∀ c, h.capacity = some c → h.records.length ≤ c

variable {h : History} {rs : List Record}

theorem Fits.keeps (hfits : h.Fits) : h.Keeps h.records := by
  unfold Keeps latest
  cases hc : h.capacity with
  | none => rfl
  | some c => simp [Nat.sub_eq_zero_of_le (hfits c hc)]

theorem fits_of_records_nil (hnil : h.records = []) : h.Fits := by
  intro c _
  rw [hnil]
  exact Nat.zero_le c

/-- A new record is kept, if there is room for any, and the oldest ones give way to it. -/
theorem keeps_push (hkeeps : h.Keeps rs) (r : Record) : (h.push r).Keeps (rs ++ [r]) := by
  unfold Keeps at hkeeps ⊢
  rw [capacity_push]
  unfold push
  cases hc : h.capacity with
  | none =>
    rw [hc] at hkeeps
    exact congrArg (· ++ [r]) hkeeps
  | some c =>
    rw [hc] at hkeeps
    have hrecords : h.records = rs.drop (rs.length - c) := hkeeps
    cases c with
    | zero => simpa [latest] using hrecords
    | succ c =>
      have hlength : rs.length - (c + 1) + (min rs.length (c + 1) - c) = rs.length - c := by omega
      have hkept : h.records.length = min rs.length (c + 1) := by
        rw [hrecords, List.length_drop]
        omega
      simp only [latest, List.length_append, List.length_singleton,
        Nat.add_sub_add_right]
      rw [hkept, hrecords, List.drop_drop, hlength, List.drop_append_of_le_length (by omega)]

/-- A drained history has the records that it held taken out, and holds none. -/
theorem keeps_drain (h : History) : h.drain.2.Keeps [] := (fits_of_records_nil rfl).keeps

end Log.History

namespace World

open Log.History (latest)

variable {η : Type} {w : World η} {h : Log.History}

/-! ### Uses -/

/-- What is done with a world between ticks and in them, as far as records are concerned. -/
inductive Use where
  /-- Emits a record. -/
  | emit (r : Log.Record)
  /-- Takes all records out of the history. -/
  | drain
  /-- Stores a value under a key, or erases what is there. -/
  | write (key : String) (v : Option Value)

/-- The blackboard after a write. -/
def written (bb : Blackboard) (key : String) : Option Value → Blackboard
  | some v => bb.insert key v
  | none => bb.erase key

theorem get?_written (bb : Blackboard) (key : String) (v : Option Value) (other : String) :
    (written bb key v).get? other = if other = key then v else bb.get? other := by
  cases v with
  | some v => exact Dict.get?_insert ..
  | none => exact Dict.get?_erase ..

/-- Carries out a use, which may give a list of drained records. -/
def use (w : World η) : Use → World η × Option (List Log.Record)
  | .emit r => (w.emit r, none)
  | .drain =>
    match w.blackboard.load? Log.History historyKey.name with
    | some h => (w.put historyKey.name h.drain.2, some h.drain.1)
    | none => (w, none)
  | .write key v => ({ w with blackboard := written w.blackboard key v }, none)

/-- Carries out uses one after the other and collects the drained lists. -/
def useAll (w : World η) : List Use → World η × List (List Log.Record)
  | [] => (w, [])
  | u :: us =>
    let rest := (w.use u).1.useAll us
    (rest.1, (w.use u).2.toList ++ rest.2)

/-! ### What the records come to -/

/-- The records emitted since the last drain, where `rs` were before the uses. -/
def since (rs : List Log.Record) : List Use → List Log.Record
  | [] => rs
  | .emit r :: us => since (rs ++ [r]) us
  | .drain :: us => since [] us
  | .write _ _ :: us => since rs us

/-- At each drain the records emitted since the one before, where `rs` were before the uses. -/
def batches (rs : List Log.Record) : List Use → List (List Log.Record)
  | [] => []
  | .emit r :: us => batches (rs ++ [r]) us
  | .drain :: us => rs :: batches [] us
  | .write _ _ :: us => batches rs us

/-- The emitted records, in their order. -/
def emitted : List Use → List Log.Record
  | [] => []
  | .emit r :: us => r :: emitted us
  | _ :: us => emitted us

/-- The blackboard after the writes among uses. -/
def writes (bb : Blackboard) : List Use → Blackboard
  | [] => bb
  | .write key v :: us => writes (written bb key v) us
  | _ :: us => writes bb us

/-- Where a record goes: to the sink on the blackboard if there is one, and to the diagnostics if
    there is nothing or a value of another type in its place. -/
def addressee (bb : Blackboard) : Sink :=
  match bb.get? sinkKey.name with
  | some (.sink s) => s
  | _ => .diagnostics

/-- The emitted records with where each of them goes. -/
def sent (bb : Blackboard) : List Use → List (Sink × Log.Record)
  | [] => []
  | .emit r :: us => (addressee bb, r) :: sent bb us
  | .write key v :: us => sent (written bb key v) us
  | .drain :: us => sent bb us

/-- The records sent to one sink. -/
def sentTo (s : Sink) (bb : Blackboard) (us : List Use) : List Log.Record :=
  (sent bb us).filterMap fun e => if e.1 = s then some e.2 else none

/-- Nothing is written over the history. -/
def SparesHistory (us : List Use) : Prop := ∀ key v, .write key v ∈ us → key ≠ historyKey.name

variable {rs : List Log.Record} {us : List Use}

/-! ### The history -/

/-- What a use does with a history, and the list that it drains. -/
def follow (h : Log.History) : Use → Log.History × Option (List Log.Record)
  | .emit r => (h.push r, none)
  | .drain => (h.drain.2, some h.drain.1)
  | .write _ _ => (h, none)

/-- What uses do with a history, and the lists that they drain. -/
def followAll (h : Log.History) : List Use → Log.History × List (List Log.Record)
  | [] => (h, [])
  | u :: us =>
    let rest := followAll (follow h u).1 us
    (rest.1, (follow h u).2.toList ++ rest.2)

theorem SparesHistory.tail {u : Use} (hspares : SparesHistory (u :: us)) : SparesHistory us :=
  fun key v hmem => hspares key v (List.mem_cons_of_mem _ hmem)

theorem load?_remember (hh : w.blackboard.load? Log.History historyKey.name = some h)
    (r : Log.Record) :
    (w.remember r).blackboard.load? Log.History historyKey.name = some (h.push r) := by
  rw [remember, hh]
  exact Blackboard.load?_put_self ..

/-- The history on the blackboard follows one use. -/
theorem use_follows {u : Use} (hh : w.blackboard.load? Log.History historyKey.name = some h)
    (hspares : SparesHistory (u :: us)) :
    (w.use u).1.blackboard.load? Log.History historyKey.name = some (follow h u).1 ∧
      (w.use u).2 = (follow h u).2 := by
  cases u with
  | emit r =>
    refine ⟨?_, rfl⟩
    rw [use, emit, blackboard_deliver]
    exact load?_remember hh r
  | drain =>
    simp only [use, hh, put]
    exact ⟨Blackboard.load?_put_self .., rfl⟩
  | write key v =>
    have hne : historyKey.name ≠ key := (hspares key v List.mem_cons_self).symm
    refine ⟨?_, rfl⟩
    simp only [use, follow, Blackboard.load?, get?_written, if_neg hne]
    exact hh

/-- The history on the blackboard follows all uses. -/
theorem useAll_follows (hh : w.blackboard.load? Log.History historyKey.name = some h)
    (hspares : SparesHistory us) :
    (w.useAll us).1.blackboard.load? Log.History historyKey.name = some (followAll h us).1 ∧
      (w.useAll us).2 = (followAll h us).2 := by
  induction us generalizing w h with
  | nil => exact ⟨hh, rfl⟩
  | cons u us ih =>
    obtain ⟨hload, hdrained⟩ := use_follows hh hspares
    obtain ⟨hload', hdrained'⟩ := ih hload hspares.tail
    exact ⟨hload', congrArg₂ (fun d ds => d.toList ++ ds) hdrained hdrained'⟩

@[simp]
theorem capacity_follow (h : Log.History) (u : Use) : (follow h u).1.capacity = h.capacity := by
  cases u with
  | emit r => exact Log.History.capacity_push h r
  | drain => rfl
  | write key v => rfl

@[simp]
theorem capacity_followAll (h : Log.History) (us : List Use) :
    (followAll h us).1.capacity = h.capacity := by
  induction us generalizing h with
  | nil => rfl
  | cons u us ih => exact (ih _).trans (capacity_follow h u)

/-- A history goes on to hold the most recent records, and gives them at each drain. -/
theorem followAll_of_keeps (hkeeps : h.Keeps rs) (us : List Use) :
    (followAll h us).1.Keeps (since rs us) ∧
      (followAll h us).2 = (batches rs us).map (latest h.capacity) := by
  induction us generalizing h rs with
  | nil => exact ⟨hkeeps, rfl⟩
  | cons u us ih =>
    cases u with
    | emit r =>
      obtain ⟨hrest, hdrained⟩ := ih (Log.History.keeps_push hkeeps r)
      exact ⟨hrest, hdrained.trans (by rw [Log.History.capacity_push]; rfl)⟩
    | drain =>
      obtain ⟨hrest, hdrained⟩ := ih (Log.History.keeps_drain h)
      exact ⟨hrest, congrArg₂ List.cons hkeeps hdrained⟩
    | write key v => exact ih hkeeps

/-- From the first drain on it does not matter what the history was like before. -/
theorem followAll_of_drain (h : Log.History) (rs : List Log.Record) (us : List Use) :
    (.drain ∈ us → (followAll h us).1.Keeps (since rs us)) ∧
      (followAll h us).2.length = (batches rs us).length ∧
      (followAll h us).2.tail = ((batches rs us).map (latest h.capacity)).tail := by
  induction us generalizing h rs with
  | nil => exact ⟨nofun, rfl, rfl⟩
  | cons u us ih =>
    cases u with
    | emit r => simpa [followAll, follow, since, batches] using ih (h.push r) (rs ++ [r])
    | drain =>
      -- the drained history is empty, whatever it was before, and from then on it keeps up
      obtain ⟨hrest, hdrained⟩ := followAll_of_keeps (Log.History.keeps_drain h) us
      refine ⟨fun _ => hrest, ?_, hdrained⟩
      exact congrArg (· + 1) ((congrArg List.length hdrained).trans (List.length_map _))
    | write key v => simpa [followAll, follow, since, batches] using ih h rs

/-! ### The sink and the other keys -/

/-- One use changes no key but that of the history and the one that it writes. -/
theorem get?_use (w : World η) (u : Use) {key : String} (hkey : key ≠ historyKey.name) :
    (w.use u).1.blackboard.get? key = (writes w.blackboard [u]).get? key := by
  cases u with
  | emit r =>
    rw [use, emit, blackboard_deliver, remember]
    split
    · exact Dict.get?_insert_of_ne _ hkey _
    · rfl
  | drain =>
    rw [use]
    split
    · exact Dict.get?_insert_of_ne _ hkey _
    · rfl
  | write key' v => rfl

/-- Two blackboards that may differ in the history only. -/
def AlikeBesideHistory (bb bb' : Blackboard) : Prop :=
  ∀ key, key ≠ historyKey.name → bb.get? key = bb'.get? key

theorem AlikeBesideHistory.written {bb bb' : Blackboard} (h : AlikeBesideHistory bb bb')
    (key : String) (v : Option Value) :
    AlikeBesideHistory (World.written bb key v) (World.written bb' key v) := by
  intro other hother
  rw [get?_written, get?_written, h other hother]

theorem AlikeBesideHistory.writes {bb bb' : Blackboard} (h : AlikeBesideHistory bb bb')
    (us : List Use) : AlikeBesideHistory (World.writes bb us) (World.writes bb' us) := by
  induction us generalizing bb bb' with
  | nil => exact h
  | cons u us ih =>
    cases u with
    | write key v => exact ih (h.written key v)
    | emit r => exact ih h
    | drain => exact ih h

theorem AlikeBesideHistory.sent_eq {bb bb' : Blackboard} (h : AlikeBesideHistory bb bb')
    (us : List Use) : sent bb us = sent bb' us := by
  induction us generalizing bb bb' with
  | nil => rfl
  | cons u us ih =>
    cases u with
    | write key v => exact ih (h.written key v)
    | emit r =>
      have haddressee : addressee bb = addressee bb' := by
        rw [addressee, addressee, h sinkKey.name (by decide)]
      simp only [sent, haddressee, ih h]
    | drain => exact ih h

/-- Emitting goes by the addressee. -/
theorem emit_eq (w : World η) (r : Log.Record) :
    w.emit r = (w.remember r).deliver r (addressee w.blackboard) := by
  unfold emit
  congr 1
  unfold Blackboard.load? addressee
  cases w.blackboard.get? sinkKey.name with
  | none => rfl
  | some v => cases v <;> rfl

theorem received_remember (w : World η) (r : Log.Record) :
    (w.remember r).received = w.received := by
  unfold remember
  split <;> rfl

theorem events_remember (w : World η) (r : Log.Record) : (w.remember r).events = w.events := by
  unfold remember
  split <;> rfl

/-- One use brings the collector what is sent to it. -/
theorem received_use (w : World η) (u : Use) :
    (w.use u).1.received = w.received ++ sentTo .collector w.blackboard [u] := by
  cases u with
  | emit r =>
    rw [use, emit_eq, sentTo, sent, sent]
    cases addressee w.blackboard <;> simp [deliver, tell, received_remember]
  | drain =>
    rw [use]
    split <;> simp [put, sentTo, sent]
  | write key v => simp [use, sentTo, sent]

/-- One use brings the diagnostics what is sent to them. -/
theorem events_use (w : World η) (u : Use) :
    (w.use u).1.events =
      w.events ++ (sentTo .diagnostics w.blackboard [u]).map Event.record := by
  cases u with
  | emit r =>
    rw [use, emit_eq, sentTo, sent, sent]
    cases addressee w.blackboard <;> simp [deliver, tell, events_remember]
  | drain =>
    rw [use]
    split <;> simp [put, sentTo, sent]
  | write key v => simp [use, sentTo, sent]

theorem host_use (w : World η) (u : Use) : (w.use u).1.host = w.host := by
  cases u with
  | emit r => exact host_emit w r
  | drain =>
    rw [use]
    split <;> rfl
  | write key v => rfl

theorem sentTo_cons (s : Sink) (bb : Blackboard) (u : Use) (us : List Use) :
    sentTo s bb (u :: us) = sentTo s bb [u] ++ sentTo s (writes bb [u]) us := by
  cases u with
  | emit r => by_cases haddressee : addressee bb = s <;> simp [sentTo, sent, writes, haddressee]
  | drain => simp [sentTo, sent, writes]
  | write key v => simp [sentTo, sent, writes]

theorem sentTo_use (s : Sink) (w : World η) (u : Use) (us : List Use) :
    sentTo s w.blackboard (u :: us) =
      sentTo s w.blackboard [u] ++ sentTo s (w.use u).1.blackboard us := by
  have halike : AlikeBesideHistory (w.use u).1.blackboard (writes w.blackboard [u]) :=
    fun key hkey => get?_use w u hkey
  rw [sentTo_cons, sentTo, sentTo, sentTo, halike.sent_eq us]

theorem received_useAll (w : World η) (us : List Use) :
    (w.useAll us).1.received = w.received ++ sentTo .collector w.blackboard us := by
  induction us generalizing w with
  | nil => exact (List.append_nil _).symm
  | cons u us ih =>
    rw [sentTo_use, ← List.append_assoc, ← received_use]
    exact ih _

theorem events_useAll (w : World η) (us : List Use) :
    (w.useAll us).1.events =
      w.events ++ (sentTo .diagnostics w.blackboard us).map Event.record := by
  induction us generalizing w with
  | nil => exact (List.append_nil _).symm
  | cons u us ih =>
    rw [sentTo_use, List.map_append, ← List.append_assoc, ← events_use]
    exact ih _

theorem host_useAll (w : World η) (us : List Use) : (w.useAll us).1.host = w.host := by
  induction us generalizing w with
  | nil => rfl
  | cons u us ih => exact (ih _).trans (host_use w u)

/-- Under the other keys there is what the writes leave there. -/
theorem alike_useAll (w : World η) (us : List Use) :
    AlikeBesideHistory (w.useAll us).1.blackboard (writes w.blackboard us) := by
  induction us generalizing w with
  | nil => exact fun _ _ => rfl
  | cons u us ih =>
    have halike : AlikeBesideHistory (w.use u).1.blackboard (writes w.blackboard [u]) :=
      fun key hkey => get?_use w u hkey
    intro key hkey
    refine (ih (w.use u).1 key hkey).trans ((halike.writes us key hkey).trans ?_)
    cases u <;> rfl

/-- Each emitted record is sent once, in the order of the records. -/
theorem map_sent (bb : Blackboard) (us : List Use) : (sent bb us).map Prod.snd = emitted us := by
  induction us generalizing bb with
  | nil => rfl
  | cons u us ih => cases u <;> simp [sent, emitted, ih]

/-! ### Delivery -/

/-- What uses leave behind in a world that had the history `h`. -/
structure Delivers (w : World η) (h : Log.History) (us : List Use) (w' : World η)
    (drained : List (List Log.Record)) : Prop where
  /-- The history is still there, with its capacity.  It holds the most recent of the records since
      the last drain, if it has been drained or was not overfull before. -/
  history : ∃ h', w'.blackboard.load? Log.History historyKey.name = some h' ∧
    h'.capacity = h.capacity ∧ (h.Fits ∨ .drain ∈ us → h'.Keeps (since h.records us))
  /-- Each drain gave a list: the most recent of the records since the drain before.  Only the first
      list depends on what the history was like before. -/
  length_drained : drained.length = (batches h.records us).length
  drained_eq : h.Fits → drained = (batches h.records us).map (latest h.capacity)
  tail_drained : drained.tail = ((batches h.records us).map (latest h.capacity)).tail
  /-- Every emitted record is sent exactly once, in order, whether the history keeps it or not. -/
  once : (sent w.blackboard us).map Prod.snd = emitted us
  /-- The collector and the diagnostics receive what is sent to them, and nothing else. -/
  received : w'.received = w.received ++ sentTo .collector w.blackboard us
  events : w'.events = w.events ++ (sentTo .diagnostics w.blackboard us).map Event.record
  /-- Under every other key there is what was written there. -/
  others : ∀ key, key ≠ historyKey.name →
    w'.blackboard.get? key = (writes w.blackboard us).get? key
  host : w'.host = w.host

/-- Whatever is emitted, drained and written beside the history on a blackboard, the history holds the
    most recent records since the last drain, and every record reaches the sink of its time exactly
    once. -/
theorem useAll_delivers (hh : w.blackboard.load? Log.History historyKey.name = some h)
    (hspares : SparesHistory us) : w.Delivers h us (w.useAll us).1 (w.useAll us).2 := by
  obtain ⟨hload, hdrained⟩ := useAll_follows hh hspares
  obtain ⟨hkeeps, hlength, htail⟩ := followAll_of_drain h h.records us
  exact
    { history := ⟨_, hload, capacity_followAll h us, fun hgood =>
        hgood.elim (fun hfits => (followAll_of_keeps hfits.keeps us).1) hkeeps⟩
      length_drained := hdrained ▸ hlength
      drained_eq := fun hfits => hdrained.trans (followAll_of_keeps hfits.keeps us).2
      tail_drained := hdrained ▸ htail
      once := map_sent w.blackboard us
      received := received_useAll w us
      events := events_useAll w us
      others := alike_useAll w us
      host := host_useAll w us }

/-- A history of two records and a blackboard where something else stands in place of the sink, until
    there is a collector. -/
theorem useAll_delivers_bounded :
    let note (message : String) : Log.Record := ⟨.info, "demo", none, none, message⟩
    let w := (World.start ()).put historyKey.name (Log.History.bounded 2)
    let us : List Use :=
      [.write sinkKey.name (some (.text "no sink")), .emit (note "a"), .emit (note "b"),
        .emit (note "c"), .drain, .write sinkKey.name (some (.sink .collector)), .emit (note "d")]
    (w.useAll us).2 = [[note "b", note "c"]] ∧
      (w.useAll us).1.received = [note "d"] ∧
      (w.useAll us).1.events = [.record (note "a"), .record (note "b"), .record (note "c")] ∧
      w.Delivers (Log.History.bounded 2) us (w.useAll us).1 (w.useAll us).2 := by
  intro note w us
  have hspares : SparesHistory us := by
    intro key v hmem
    simp only [us, List.mem_cons, Use.write.injEq, reduceCtorEq, false_or, List.not_mem_nil,
      or_false] at hmem
    obtain ⟨rfl, -⟩ | ⟨rfl, -⟩ := hmem <;> decide
  have hdelivers := useAll_delivers (w := w) (Blackboard.load?_put_self ..) hspares
  refine ⟨?_, ?_, ?_, hdelivers⟩
  · rw [hdelivers.drained_eq (Log.History.fits_of_records_nil rfl)]
    rfl
  · rw [hdelivers.received]
    rfl
  · rw [hdelivers.events]
    rfl

end World

end BehaviorTree
