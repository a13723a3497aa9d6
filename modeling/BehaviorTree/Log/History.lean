import BehaviorTree.Log.Record

namespace BehaviorTree.Log

/-!
# Log histories

A buffer of records, oldest first, with an optional capacity past which the oldest records
make room for new ones.

* `History.length_push_le` — a record never takes the buffer past its capacity;
* `History.push_of_unbounded` — without a capacity every record is kept.
-/

/-- A buffer of records, oldest first. -/
structure History where
  records : List Record
  capacity : Option Nat
deriving DecidableEq, Repr

namespace History

/-- An empty history that keeps everything. -/
def unbounded : History := ⟨[], none⟩

/-- An empty history that keeps the `capacity` most recent records. -/
def bounded (capacity : Nat) : History := ⟨[], some capacity⟩

/-- Adds a record.  A history of capacity zero takes none; a full one gives up as many of its
    oldest records as make room. -/
def push (h : History) (r : Record) : History :=
  match h.capacity with
  | none => { h with records := h.records ++ [r] }
  | some 0 => h
  | some (c + 1) => { h with records := h.records.drop (h.records.length - c) ++ [r] }

/-- Takes all records out, oldest first. -/
def drain (h : History) : List Record × History := (h.records, { h with records := [] })

@[simp]
theorem capacity_push (h : History) (r : Record) : (h.push r).capacity = h.capacity := by
  unfold push
  split <;> rfl

theorem push_of_unbounded {h : History} (hc : h.capacity = none) (r : Record) :
    (h.push r).records = h.records ++ [r] := by
  simp [push, hc]

theorem length_push_le {h : History} {c : Nat} (hc : h.capacity = some c)
    (hl : h.records.length ≤ c) (r : Record) : (h.push r).records.length ≤ c := by
  unfold push
  cases c with
  | zero => simpa [hc] using hl
  | succ c => simp [hc]; omega

end History

end BehaviorTree.Log
