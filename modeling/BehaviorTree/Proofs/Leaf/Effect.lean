import BehaviorTree.Leaf.Builtin
import BehaviorTree.Proofs.Log.Delivery
import Mathlib.Data.List.DropRight

namespace BehaviorTree.Effect

/-!
# What leaves do to the world

The effects of the leaves that do not wait, written down over the parts of a world: the values on the
blackboard, the records that were received and the events.

* `write` — a value of a property comes onto the blackboard;
* `send` — a record goes into the history and to the sink;
* `compare` — the value of a property is compared with what is on the blackboard, and events tell of the
  types that were tried before;
* `storeProperty_eq`, `emit_eq_send`, `matching_eq_compare` — this is what the leaves do.
-/

variable {η : Type}

/-! ### Writes -/

/-- A value of a property as it stands on a blackboard. -/
def stored : PropertyValue → Value
  | .text s => .text s
  | .number x => .real x

/-- The world with the value of a property under a key, whatever was there. -/
def write (key : String) (value : PropertyValue) (w : World η) : World η :=
  { w with blackboard := w.blackboard.insert key (stored value) }

theorem storeProperty_eq (w : World η) (key : String) (value : PropertyValue) :
    Builtin.storeProperty w key value = write key value w := by
  cases value <;> rfl

/-! ### Records -/

/-- The blackboard after a record.  It comes last in the history, if there is one; a history with room
    for so many holds the last of them, and a history without room stays as it is. -/
def keep (r : Log.Record) (bb : Blackboard) : Blackboard :=
  match bb.get? "grove.log.history" with
  | some (.history ⟨records, none⟩) =>
    bb.insert "grove.log.history" (.history ⟨records ++ [r], none⟩)
  | some (.history ⟨records, some (c + 1)⟩) =>
    bb.insert "grove.log.history" (.history ⟨(records ++ [r]).rtake (c + 1), some (c + 1)⟩)
  | _ => bb

/-- The world after a record.  Besides the history, the sink on the blackboard gets it; without a sink it
    is an event. -/
def send (r : Log.Record) (w : World η) : World η :=
  let kept : World η := { w with blackboard := keep r w.blackboard }
  match w.blackboard.get? "grove.log.sink" with
  | some (.sink .collector) => { kept with received := w.received ++ [r] }
  | some (.sink .discard) => kept
  | _ => { kept with events := w.events ++ [.record r] }

theorem remember_eq_keep (w : World η) (r : Log.Record) :
    w.remember r = { w with blackboard := keep r w.blackboard } := by
  unfold World.remember keep Blackboard.load?
  rw [show historyKey.name = "grove.log.history" from rfl]
  cases hget : w.blackboard.get? "grove.log.history" with
  | none => rfl
  | some v =>
    cases v with
    | history h =>
      obtain ⟨records, capacity⟩ := h
      cases capacity with
      | none => rfl
      | some c =>
        cases c with
        | zero =>
          -- such a history takes no record, and what is put back is what was there
          have hsame : w.blackboard.insert "grove.log.history" (.history ⟨records, some 0⟩) =
              w.blackboard := by
            refine Dict.ext fun key => ?_
            rw [Dict.get?_insert]
            split
            · next hkey => rw [hkey, hget]
            · rfl
          show World.put w _ (Log.History.mk records (some 0)) = _
          rw [World.put, Blackboard.put]
          exact congrArg (fun bb => ({ w with blackboard := bb } : World η)) hsame
        | succ c =>
          have hlatest : records.drop (records.length - c) ++ [r] = (records ++ [r]).rtake (c + 1) := by
            rw [List.rtake, List.length_append, List.length_singleton, Nat.add_sub_add_right,
              List.drop_append_of_le_length (Nat.sub_le _ _)]
          show World.put w _ (Log.History.mk (records.drop (records.length - c) ++ [r]) (some (c + 1))) = _
          rw [hlatest]
          rfl
    | _ => rfl

theorem emit_eq_send (w : World η) (r : Log.Record) : w.emit r = send r w := by
  rw [World.emit_eq, remember_eq_keep]
  unfold World.addressee send
  rw [show sinkKey.name = "grove.log.sink" from rfl]
  cases w.blackboard.get? "grove.log.sink" with
  | none => rfl
  | some v =>
    cases v with
    | sink s => cases s <;> rfl
    | _ => rfl

/-! ### Comparisons -/

/-- Whether the value of a property agrees with what stands on a blackboard.  A text there is compared
    with the text of the value; a real with the finite number that the value is or writes; a signed word
    with the integer that it is or writes, where a number goes to the next word; and a truth value with
    the word for it, in any letter case.  Nothing else agrees with anything. -/
def agrees : PropertyValue → Value → Bool
  | .text s, .text t => s == t
  | .number x, .text t => Decimal.render .plain x == t
  | .number x, .real y => Decimal.isFinite x && x == y
  | .text s, .real y =>
    (Decimal.readFloat? (Text.trim s.toList)).any fun x => Decimal.isFinite x && x == y
  | .number x, .integer n => (Decimal.toInt? x).any fun k => Decimal.clampInt64 k == n
  | .text s, .integer n => (Decimal.readInt64? (Text.trim s.toList)).any (· == n)
  | .text s, .flag b =>
    String.ofList ((Text.trim s.toList).map Char.toLower) == if b then "true" else "false"
  | _, _ => false

/-- The types that are asked for before that of a value: text, real, signed word and truth value in this
    order. -/
def tried : Value → List ValueType
  | .text _ => []
  | .real _ => [.text]
  | .integer _ => [.text, .real]
  | .flag _ => [.text, .real, .integer]
  | .word _ | .history _ | .sink _ | .reference .. => [.text, .real, .integer, .flag]

/-- Whether the value of a property agrees with what is under a key, and the world afterwards.  Every type
    that was asked for in vain is an event. -/
def compare (key : String) (value : PropertyValue) (w : World η) : Bool × World η :=
  match w.blackboard.get? key with
  | none => (false, w)
  | some v => (agrees value v, { w with events := w.events ++ (tried v).map (.typeMismatch key) })

theorem read_of_absent {w : World η} {key : String} (h : w.blackboard.get? key = none) (α : Type)
    [Storable α] : w.read α key = (none, w) := by
  unfold World.read World.tell Blackboard.mismatch? Blackboard.load?
  rw [h, Option.bind_none, Option.toList_none, List.append_nil]

section

variable {w : World η} {key : String} {v : Value} {α : Type} [Storable α]

/-- A read of a value that has the type asked for. -/
theorem read_of_load? (h : w.blackboard.get? key = some v) {a : α} (hload : Storable.load? v = some a) :
    w.read α key = (some a, w) := by
  unfold World.read World.tell Blackboard.mismatch? Blackboard.load?
  rw [h, Option.bind_some, hload, Option.toList_none, List.append_nil]

/-- A read of a value of another type. -/
theorem read_of_mismatch (h : w.blackboard.get? key = some v) (hload : Storable.load? (α := α) v = none) :
    w.read α key = (none, w.tell [.typeMismatch key (Storable.type α)]) := by
  unfold World.read Blackboard.mismatch? Blackboard.load?
  rw [h, Option.bind_some, hload, Option.toList_some]

end

/-! A value is converted to the type of what is found, and compared as that. -/

theorem agrees_text (value : PropertyValue) (t : String) :
    (value.render == t) = agrees value (.text t) := by
  cases value <;> rfl

theorem agrees_real (value : PropertyValue) (y : Float) :
    value.asReal?.any (· == y) = agrees value (.real y) := by
  cases value with
  | number x => exact Option.any_filter (some x)
  | text s => exact Option.any_filter (Decimal.readFloat? (Text.trim s.toList))

theorem beq_some_eq_any (n? : Option Int64) (n : Int64) : (n? == some n) = n?.any (· == n) := by
  cases n? <;> rfl

theorem agrees_integer (value : PropertyValue) (n : Int64) :
    (value.asInteger? == some n) = agrees value (.integer n) := by
  rw [beq_some_eq_any]
  cases value with
  | number x => exact Option.any_map
  | text s => rfl

theorem agrees_flag (value : PropertyValue) (b : Bool) :
    (value.asFlag? == some b) = agrees value (.flag b) := by
  cases value with
  | number x => rfl
  | text s =>
    -- the two words are the only texts that write a truth value
    show (PropertyValue.asFlag? (.text s) == some b) =
      (String.ofList ((Text.trim s.toList).map Char.toLower) == if b then "true" else "false")
    rw [PropertyValue.asFlag?, PropertyValue.asText?, Option.bind_some]
    split
    · next htrue => rw [htrue]; cases b <;> decide
    · next hfalse => rw [hfalse]; cases b <;> decide
    · next htrue hfalse =>
      cases b
      · exact (beq_eq_false_iff_ne.2 hfalse).symm
      · exact (beq_eq_false_iff_ne.2 htrue).symm

theorem matching_eq_compare (w : World η) (key : String) (value : PropertyValue) :
    Builtin.matching w key value = compare key value w := by
  unfold Builtin.matching compare
  cases hget : w.blackboard.get? key with
  | none => simp only [read_of_absent hget]
  | some v =>
    -- what a read tells leaves the blackboard to the next one
    have hread (es : List Event) : (w.tell es).blackboard.get? key = some v := hget
    have htell (es es' : List Event) : (w.tell es).tell es' = w.tell (es ++ es') := by
      simp only [World.tell, List.append_assoc]
    cases v with
    | text t =>
      simp only [read_of_load? (α := String) hget rfl, agrees_text, tried, List.map_nil, List.append_nil]
    | real y =>
      simp only [read_of_mismatch (α := String) hget rfl, read_of_load? (α := Float) (hread _) rfl,
        agrees_real]
      rfl
    | integer n =>
      simp only [read_of_mismatch (α := String) hget rfl, read_of_mismatch (α := Float) (hread _) rfl,
        htell, read_of_load? (α := Int64) (hread _) rfl, agrees_integer]
      rfl
    | flag b =>
      simp only [read_of_mismatch (α := String) hget rfl, read_of_mismatch (α := Float) (hread _) rfl,
        htell, read_of_mismatch (α := Int64) (hread _) rfl, read_of_load? (α := Bool) (hread _) rfl,
        agrees_flag]
      rfl
    | word | history | sink | reference =>
      simp only [read_of_mismatch (α := String) hget rfl, read_of_mismatch (α := Float) (hread _) rfl,
        htell, read_of_mismatch (α := Int64) (hread _) rfl, read_of_mismatch (α := Bool) (hread _) rfl]
      cases value <;> rfl

theorem blackboard_compare (key : String) (value : PropertyValue) (w : World η) :
    (compare key value w).2.blackboard = w.blackboard := by
  unfold compare
  cases w.blackboard.get? key <;> rfl

end BehaviorTree.Effect
