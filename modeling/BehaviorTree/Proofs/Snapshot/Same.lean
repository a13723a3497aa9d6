import BehaviorTree.Proofs.Decimal.Sign
import BehaviorTree.Proofs.Node.Snapshot

namespace BehaviorTree

/-!
# Comparing snapshots

Snapshots are compared number by number, and the comparison of numbers does not tell the two zeros
apart.  Among properties without a sign it is equality.

* `Snapshot.eq_of_sameProperties` — properties without a sign that compare as the same are equal;
* `Snapshot.same_ofNode` — comparing the snapshots of two trees is comparing their roots and then the
  snapshots of their children.
-/

/-- A value is not a number with a sign. -/
def PropertyValue.Unsigned : PropertyValue → Prop
  | .number x => Decimal.Unsigned x
  | .text _ => True

theorem PropertyValue.Unsigned.eq_of_same {v w : PropertyValue} (hv : v.Unsigned)
    (hw : w.Unsigned) (h : v.same w = true) : v = w := by
  cases v with
  | number x =>
    cases w with
    | number y => exact congrArg PropertyValue.number (Decimal.Unsigned.eq_of_beq hv hw h)
    | text t => exact absurd h nofun
  | text s =>
    cases w with
    | number y => exact absurd h nofun
    | text t => exact congrArg PropertyValue.text (eq_of_beq h)

/-! ### Properties -/

/-- No value is a number with a sign. -/
def UnsignedProperties (d : Dict PropertyValue) : Prop := ∀ e ∈ d.entries, e.2.Unsigned

theorem unsignedProperties_empty : UnsignedProperties .empty := fun _ h => absurd h List.not_mem_nil

theorem Dict.mem_of_mem_put {α : Type} {k : String} {v : α} {e : String × α}
    {es : List (String × α)} (h : e ∈ put k v es) : e = (k, v) ∨ e ∈ es := by
  induction es with
  | nil => exact .inl (List.mem_singleton.1 h)
  | cons e' es ih =>
    unfold put at h
    split at h
    · exact List.mem_cons.1 h
    split at h
    · exact (List.mem_cons.1 h).imp_right (List.mem_cons_of_mem e')
    · rcases List.mem_cons.1 h with rfl | h
      · exact .inr List.mem_cons_self
      · exact (ih h).imp_right (List.mem_cons_of_mem e')

theorem UnsignedProperties.insert {d : Dict PropertyValue} (h : UnsignedProperties d) (k : String)
    {v : PropertyValue} (hv : v.Unsigned) : UnsignedProperties (d.insert k v) := by
  intro e he
  rcases Dict.mem_of_mem_put he with rfl | he
  · exact hv
  · exact h e he

namespace Snapshot

theorem entries_eq_of_same {es fs : List (String × PropertyValue)}
    (hkeys : es.map Prod.fst = fs.map Prod.fst)
    (hes : ∀ e ∈ es, e.2.Unsigned) (hfs : ∀ f ∈ fs, f.2.Unsigned)
    (h : ((es.zip fs).all fun p => p.1.2.same p.2.2) = true) : es = fs := by
  induction es generalizing fs with
  | nil =>
    rw [List.map_nil, eq_comm, List.map_eq_nil_iff] at hkeys
    exact hkeys.symm
  | cons e es ih =>
    cases fs with
    | nil => exact absurd hkeys nofun
    | cons f fs =>
      obtain ⟨hkey, hkeys⟩ := List.cons.inj hkeys
      obtain ⟨he, hes⟩ := List.forall_mem_cons.1 hes
      obtain ⟨hf, hfs⟩ := List.forall_mem_cons.1 hfs
      rw [List.zip_cons_cons, List.all_cons, Bool.and_eq_true] at h
      rw [Prod.ext hkey (he.eq_of_same hf h.1), ih hkeys hes hfs h.2]

/-- Properties without a sign that compare as the same are equal. -/
theorem eq_of_sameProperties {d e : Dict PropertyValue} (hd : UnsignedProperties d)
    (he : UnsignedProperties e) (h : sameProperties d e = true) : d = e := by
  obtain ⟨hkeys, hvalues⟩ := Bool.and_eq_true_iff.1 h
  exact Dict.eq_of_entries (entries_eq_of_same (eq_of_beq hkeys) hd he hvalues)

/-! ### Trees -/

variable {β : Type}

/-- Two trees have the same snapshot when their roots and their children do. -/
theorem same_ofNode {n m : Node β} :
    (ofNode n).same (ofNode m) = true ↔
      n.kind = m.kind ∧ n.name = m.name ∧ sameProperties n.properties m.properties = true ∧
        sameAll (ofNodes n.children) (ofNodes m.children) = true := by
  rw [ofNode_eq n, ofNode_eq m, same]
  simp only [Bool.and_eq_true, decide_eq_true_eq, and_assoc]

/-- What agrees for trees with the same snapshot agrees for lists of them. -/
theorem map_eq_of_sameAll {γ : Type} {g : Node β → γ} {cs ds : List (Node β)}
    (hg : ∀ c ∈ cs, ∀ d ∈ ds, (ofNode c).same (ofNode d) = true → g c = g d)
    (h : sameAll (ofNodes cs) (ofNodes ds) = true) : cs.map g = ds.map g := by
  induction cs generalizing ds with
  | nil =>
    cases ds with
    | nil => rfl
    | cons d ds => simp [ofNodes, sameAll] at h
  | cons c cs ih =>
    cases ds with
    | nil => simp [ofNodes, sameAll] at h
    | cons d ds =>
      simp only [ofNodes, sameAll, Bool.and_eq_true] at h
      have hhead := hg c List.mem_cons_self d List.mem_cons_self h.1
      have htail := ih (fun x hx y hy => hg x (List.mem_cons_of_mem c hx) y
        (List.mem_cons_of_mem d hy)) h.2
      rw [List.map_cons, List.map_cons, hhead, htail]

end Snapshot

end BehaviorTree
