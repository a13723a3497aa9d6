import BehaviorTree.Proofs.Snapshot.Same
import BehaviorTree.Proofs.Source.Grown

namespace BehaviorTree.Source

/-!
# What reading builds

The numbers in a tree file have no sign, and so have those in the declarations from which a tree is
built.

* `Built` — a tree that was built from declarations whose values have no sign;
* `built_of_read` — reading the text of a file gives such trees only, up to the name of the tree.
-/

variable {β η : Type} [Behavior β η] {r : Registry β η}

/-- The tree was built from declarations all the way down, and no value in them is a number with a
    sign. -/
inductive Built (r : Registry β η) : Node β → Prop
  | build {d : Declaration β} {s : Site η} {n : Node β} :
    (∀ p ∈ d.properties, p.2.Unsigned) → (∀ c ∈ d.children, Built r c) →
    (d.build r s).1 = some n → Built r n

/-- The numbers of numerals have no sign. -/
theorem unsigned_of_isValue {ts : List Token} (hform : Numerals ts) {t : Token} (ht : t ∈ ts)
    {v : PropertyValue} (h : IsValue t v) : v.Unsigned := by
  obtain ⟨-, s, rfl⟩ | ⟨hkind, -, x, rfl, hx⟩ := h.text_or_number
  · trivial
  · exact Decimal.unsigned_of_readFloat? (hform t ht hkind) hx

/-- What stands among tokens whose numbers are numerals has no sign. -/
theorem Grown.built {ts : List Token} (hform : Numerals ts) {n : Node β} (h : Grown r ts n) :
    Built r n := by
  induction h with
  | build hdrawn _ hbuild ih =>
    refine .build (fun p hp => ?_) ih hbuild
    obtain ⟨t, ht, hvalue⟩ := hdrawn.values p hp
    exact unsigned_of_isValue hform ht hvalue

/-- A tree that is read from the text of a file was built, and then got the name of the tree. -/
theorem built_of_read {source : String} {shop : Workshop η} {root : Node β}
    (hok : (read r source shop).result = .ok root) :
    ∃ m tree, ∃ host : η, Built r m ∧ root = (m.setProperty "treeName" (.text tree) host).1 := by
  obtain ⟨m, tree, host, hm, hroot⟩ := grown_of_read hok
  exact ⟨m, tree, host, hm.built (numerals_scan source), hroot⟩

end BehaviorTree.Source
