import BehaviorTree.Node.Execute
import BehaviorTree.Leaf.Builtin
import BehaviorTree.Proofs.Decimal.Integer
import BehaviorTree.Proofs.Decimal.Overflow
import BehaviorTree.Proofs.Source.Grammar

namespace BehaviorTree

/-!
# What a leaf finds equal

A leaf that asks whether the value under a key equals its own value converts its own value to the type
that it finds under the key.  The conversions are not the ones that a write uses, and not exact.

* `PropertyValue.asInteger?_eq_some_iff` — a value is converted to the integer that it is, but a number
  beyond the words to the last word on its side;
* `PropertyValue.any_asReal?` — a number equals itself exactly if it is finite;
* `Builtin.matching_eq` — what is compared for a text, a real and an integer under the key;
* `Builtin.equal_integer_iff` — which values equal an integer;
* `Builtin.equal_written_iff` — a value of a tree file equals what was written with it, except for
  numerals too large for a double.
-/

/-! ### Conversions -/

namespace PropertyValue

/-- The value is an integer: a number that is exactly this one, or a text that writes it, blanks around
    it ignored. -/
def Is (v : PropertyValue) (n : Int) : Prop :=
  match v with
  | .number x => Decimal.value? x = some (n : ℚ)
  | .text s => Decimal.WritesInt (Text.trim s.toList) n

/-- The value is a number beyond the words, and the word is the last one on its side. -/
def Exceeds (v : PropertyValue) (k : Int64) : Prop :=
  match v with
  | .number x => ∃ q, Decimal.value? x = some q ∧ Decimal.Beyond k q
  | .text _ => False

/-- A value is converted to the integer that it is, and to the nearest word if it exceeds the words. -/
theorem asInteger?_eq_some_iff {v : PropertyValue} {k : Int64} :
    v.asInteger? = some k ↔ v.Is k.toInt ∨ v.Exceeds k := by
  cases v with
  | text s =>
    show Decimal.readInt64? (Text.trim s.toList) = some k ↔ _
    rw [Decimal.readInt64?_eq_some_iff, Is, Exceeds, or_false]
  | number x =>
    simp only [asInteger?, Is, Exceeds, Option.map_eq_some_iff, Decimal.toInt?_eq_some_iff,
      Decimal.clampInt64_eq_iff]
    constructor
    · rintro ⟨n, hn, rfl | hbeyond⟩
      · exact .inl hn
      · exact .inr ⟨n, hn, hbeyond⟩
    · rintro (hn | ⟨q, hq, hbeyond⟩)
      · exact ⟨k.toInt, hn, .inl rfl⟩
      · -- a number beyond the words is an integer
        obtain ⟨n, rfl⟩ := Decimal.exists_int_of_value? hq hbeyond.two_pow_le_abs
        exact ⟨n, hq, .inr hbeyond⟩

/-- The value is a text or a finite number. -/
def isFinite : PropertyValue → Bool
  | .text _ => true
  | .number x => Decimal.isFinite x

/-- A number equals itself as a real exactly if it is finite. -/
theorem any_asReal? (x : Float) :
    (asReal? (.number x)).any (· == x) = Decimal.isFinite x := by
  show ((some x).filter Decimal.isFinite).any (· == x) = Decimal.isFinite x
  rw [Option.filter_some]
  split
  · next hfinite =>
    have hnan : x ≠ Float.nan := by
      rintro rfl
      exact absurd hfinite (by decide)
    rw [hfinite, Option.any_some]
    exact Float.beq_iff_ne_nan_and_eq.2 ⟨hnan, hnan, .inl rfl⟩
  · next hinfinite =>
    rw [Option.any_none]
    exact (Bool.not_eq_true _ ▸ hinfinite).symm

end PropertyValue

/-! ### Typed reads -/

/-- What is there as a value of one type is not there as a value of another one. -/
theorem Blackboard.load?_eq_none {α : Type} [Storable α] {bb : Blackboard} {key : String} {a : α}
    (h : bb.load? α key = some a) (β : Type) [Storable β]
    (htype : Storable.type α ≠ Storable.type β) : bb.load? β key = none := by
  cases hb : bb.load? β key with
  | none => rfl
  | some b =>
    have hstore := (Blackboard.load?_eq_some_iff.1 h).symm.trans (Blackboard.load?_eq_some_iff.1 hb)
    refine absurd ?_ htype
    rw [← Storable.type_store a, Option.some.inj hstore, Storable.type_store]

namespace Builtin

variable {η : Type}

/-- A leaf with a key and a value. -/
def about (leaf : Builtin) (key : String) (v : PropertyValue) : Builtin :=
  (leaf.configure "key" (.text key)).configure "value" v

/-- The comparison with a text, a real or an integer under the key. -/
theorem matching_eq (w : World η) (key : String) (v : PropertyValue) :
    (∀ s, w.blackboard.load? String key = some s → (matching w key v).1 = (v.render == s)) ∧
      (∀ x, w.blackboard.load? Float key = some x →
        (matching w key v).1 = v.asReal?.any (· == x)) ∧
      ∀ k, w.blackboard.load? Int64 key = some k →
        (matching w key v).1 = (v.asInteger? == some k) := by
  unfold matching World.read
  refine ⟨fun s hs => ?_, fun x hx => ?_, fun k hk => ?_⟩
  · simp only [hs]
  · have htext := Blackboard.load?_eq_none hx String (by decide)
    simp only [htext, World.blackboard_tell, hx]
  · have htext := Blackboard.load?_eq_none hk String (by decide)
    have hreal := Blackboard.load?_eq_none hk Float (by decide)
    simp only [htext, hreal, World.blackboard_tell, hk]

/-- The question is answered as the comparison comes out. -/
theorem status_equal (w : World η) (key : String) (v : PropertyValue) (info : NodeInfo)
    (kind : LeafKind) (now : Moment) :
    (Node.execute now (.leaf info kind (equal.about key v)) w).status =
      .ofBool (matching w key v).1 := by
  rw [Node.execute_leaf]
  rfl

theorem ofBool_eq_success {ok : Bool} : Status.ofBool ok = .success ↔ ok = true := by
  cases ok <;> decide

/-! ### Integers -/

/-- **Equality with an integer.**  A value equals the integer under the key exactly if it is this integer
    or, for the first and the last word, a number beyond it.  The conversion to integers answers just
    these. -/
theorem equal_integer_iff {w : World η} {key : String} {k : Int64}
    (hk : w.blackboard.load? Int64 key = some k) (v : PropertyValue) (info : NodeInfo)
    (kind : LeafKind) (now : Moment) :
    ((Node.execute now (.leaf info kind (equal.about key v)) w).status = .success ↔
      v.Is k.toInt ∨ v.Exceeds k) ∧
      ∀ n : Int64, v.asInteger? = some n ↔ v.Is n.toInt ∨ v.Exceeds n := by
  refine ⟨?_, fun n => PropertyValue.asInteger?_eq_some_iff⟩
  rw [status_equal, ofBool_eq_success, (matching_eq w key v).2.2 k hk, beq_iff_eq]
  exact PropertyValue.asInteger?_eq_some_iff

/-- A world with an integer on its blackboard. -/
def counted (k : Int64) : World Unit := (World.start ()).put "count" k

/-- A text with blanks around a sign and digits is the integer that it writes. -/
theorem equal_text_three :
    (counted 3).blackboard.load? Int64 "count" = some 3 ∧
      (Node.execute ⟨0, 0.0⟩ (.leaf { id := 1, name := "Condition" } .condition
        (equal.about "count" (.text " +3 "))) (counted 3)).status = .success := by
  have hload : (counted 3).blackboard.load? Int64 "count" = some 3 := Blackboard.load?_put_self _ _ _
  have hdigits : ∀ c ∈ ['3'], c.isDigit = true := List.forall_mem_singleton.2 rfl
  refine ⟨hload, ((equal_integer_iff hload _ _ _ _).1).2 (.inl ?_)⟩
  exact ⟨['3'], nofun, hdigits, .inl ⟨.inr (by decide), rfl⟩⟩

/-- The double `2 ^ 63`, which is no word. -/
def beyond : Float := Float.ofBits 0x43E0000000000000

/-- **A number can equal a word that it is not.**  The greatest word is found equal to `2 ^ 63`. -/
theorem greatest_equals_beyond :
    (Node.execute ⟨0, 0.0⟩ (.leaf { id := 1, name := "Condition" } .condition
        (equal.about "count" (.number beyond))) (counted .maxValue)).status = .success ∧
      PropertyValue.asInteger? (.number beyond) = some .maxValue ∧
      ¬ (PropertyValue.number beyond).Is Int64.maxValue.toInt ∧
      (PropertyValue.number beyond).Is (2 ^ 63) := by
  have hparts : Decimal.Binary.ofFloat beyond = .finite false (2 ^ 52) 11 := by decide
  have hvalue : Decimal.value? beyond = some ((2 ^ 63 : ℤ) : ℚ) := by
    rw [Decimal.value?_eq, hparts, Decimal.Binary.value?, Decimal.signed]
    norm_num
  have hinteger : PropertyValue.asInteger? (.number beyond) = some .maxValue := by
    rw [PropertyValue.asInteger?, Decimal.toInt?_eq_some_iff.2 hvalue]
    rfl
  refine ⟨?_, hinteger, ?_, hvalue⟩
  · have hload : (counted .maxValue).blackboard.load? Int64 "count" = some .maxValue :=
      Blackboard.load?_put_self _ _ _
    rw [status_equal, (matching_eq _ _ _).2.2 _ hload, hinteger, beq_self_eq_true]
    rfl
  · intro his
    have heq := Option.some.inj (hvalue.symm.trans his)
    rw [Int64.toInt_maxValue] at heq
    norm_num at heq

/-! ### Written values -/

/-- A value is equal to what was written with it, unless it is a number that is not finite. -/
theorem matching_storeProperty (w : World η) (key : String) (v : PropertyValue) :
    (matching (storeProperty w key v) key v).1 = v.isFinite := by
  cases v with
  | text s =>
    rw [(matching_eq _ key _).1 s (Blackboard.load?_put_self _ _ _)]
    exact beq_self_eq_true s
  | number x =>
    rw [(matching_eq _ key _).2.1 x (Blackboard.load?_put_self _ _ _)]
    exact PropertyValue.any_asReal? x

/-- A write of a value and the question for it afterwards. -/
theorem status_written (key : String) (v : PropertyValue) (w : World η) (info info' : NodeInfo)
    (kind kind' : LeafKind) (now now' : Moment) :
    let written := Node.execute now (.leaf info kind (write.about key v)) w
    written.status = .success ∧
      (Node.execute now' (.leaf info' kind' (equal.about key v)) written.world).status =
        .ofBool v.isFinite := by
  have hwritten : Node.execute now (.leaf info kind (write.about key v)) w =
      ⟨.success, .leaf info kind (write.about key v), storeProperty w key v⟩ := by
    rw [Node.execute_leaf]
    rfl
  dsimp only
  rw [hwritten, status_equal, matching_storeProperty]
  exact ⟨rfl, rfl⟩

/-- **A written value is found again.**  A value of a tree file is written under a key, whatever is
    there, and then it equals what is there, except for a numeral that is too large for a double.  The
    numbers of a file are numerals, as `Source.valid_scan` says. -/
theorem equal_written_iff {t : Source.Token} {v : PropertyValue} (hv : Source.IsValue t v)
    (hform : t.kind = .number → Decimal.IsNumeral t.text.toList) (key : String) (w : World η)
    (info info' : NodeInfo) (kind kind' : LeafKind) (now now' : Moment) :
    let written := Node.execute now (.leaf info kind (write.about key v)) w
    let asked := Node.execute now' (.leaf info' kind' (equal.about key v)) written.world
    written.status = .success ∧ (asked.status = .success ∨ asked.status = .failure) ∧
      (asked.status = .success ↔
        (t.kind = .number → Decimal.numeralValue t.text.toList < Decimal.overflow)) := by
  obtain ⟨hwritten, hasked⟩ := status_written key v w info info' kind kind' now now'
  dsimp only
  rw [hasked, ofBool_eq_success]
  refine ⟨hwritten, ?_, ?_⟩
  · cases v.isFinite
    · exact .inr rfl
    · exact .inl rfl
  · obtain ⟨hne, s, rfl⟩ | ⟨hkind, -, x, rfl, hx⟩ := hv.text_or_number
    · exact iff_of_true rfl fun hkind => absurd hkind hne
    · rw [PropertyValue.isFinite, Decimal.isFinite_readFloat?_iff (hform hkind) hx]
      exact ⟨fun h _ => h, fun h => h hkind⟩

/-- A numeral as a token. -/
def numeral (cs : List Char) : Source.Token := ⟨.number, 1, String.ofList cs⟩

/-- One half is written and found again. -/
theorem equal_half :
    let written := Node.execute ⟨0, 0.0⟩ (.leaf { id := 1, name := "Action" } .action
      (write.about "share" (.number 0.5))) (World.start ())
    Source.IsValue (numeral ['0', '.', '5']) (.number 0.5) ∧
      Decimal.IsNumeral (numeral ['0', '.', '5']).text.toList ∧
      (Node.execute ⟨1, 0.5⟩ (.leaf { id := 2, name := "Condition" } .condition
        (equal.about "share" (.number 0.5))) written.world).status = .success := by
  have htext : (numeral ['0', '.', '5']).text.toList = ['0', '.', '5'] := String.toList_ofList
  have hread : Decimal.readFloat? ['0', '.', '5'] = some 0.5 := by decide +kernel
  have hvalue : Source.IsValue (numeral ['0', '.', '5']) (.number 0.5) := by
    refine .number rfl ?_ ?_ <;> rw [htext]
    · exact ⟨'0', by simp, rfl⟩
    · exact hread
  have hform : Decimal.IsNumeral (numeral ['0', '.', '5']).text.toList := by
    rw [htext]
    refine ⟨?_, by decide⟩
    simp [Char.isDigit]
  refine ⟨hvalue, hform, ?_⟩
  refine (equal_written_iff hvalue (fun _ => hform) "share" _ _ _ _ _ _ _).2.2.2 fun _ => ?_
  have hdigits : Decimal.ofDigits (['0', '.', '5'].filter Char.isDigit) = 5 := rfl
  have hplaces : Decimal.places ['0', '.', '5'] = 1 := rfl
  have hnumber : Decimal.numeralValue ['0', '.', '5'] = 5 / 10 := by
    rw [Decimal.numeralValue, hdigits, hplaces]
    norm_num
  rw [htext, hnumber]
  exact lt_trans (by norm_num) Decimal.one_lt_overflow

/-- The digit one and 309 zeros. -/
def googols : List Char := '1' :: List.replicate 309 '0'

/-- **A numeral too large for a double is written, but not found again.** -/
theorem googols_lost :
    let v := PropertyValue.number (Decimal.infinity false)
    let written := Node.execute ⟨0, 0.0⟩ (.leaf { id := 1, name := "Action" } .action
      (write.about "size" v)) (World.start ())
    Source.IsValue (numeral googols) v ∧ written.status = .success ∧
      (Node.execute ⟨1, 0.5⟩ (.leaf { id := 2, name := "Condition" } .condition
        (equal.about "size" v)) written.world).status = .failure := by
  intro v written
  have htext : (numeral googols).text.toList = googols := String.toList_ofList
  have hread : Decimal.readFloat? googols = some (Decimal.infinity false) := by decide +kernel
  have hinfinite : v.isFinite = false := by decide
  obtain ⟨hwritten, hasked⟩ := status_written "size" v (World.start ())
    { id := 1, name := "Action" } { id := 2, name := "Condition" } .action .condition ⟨0, 0.0⟩ ⟨1, 0.5⟩
  refine ⟨?_, hwritten, ?_⟩
  · refine .number rfl ?_ ?_ <;> rw [htext]
    · exact ⟨'1', List.mem_cons_self, rfl⟩
    · exact hread
  · rw [hasked, hinfinite]
    rfl

end Builtin

end BehaviorTree
