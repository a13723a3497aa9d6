import BehaviorTree.Proofs.Decimal.Nearest
import BehaviorTree.Source.Tree

namespace BehaviorTree.Source

/-!
# The grammar of a tree file

The rules of a tree file as derivations of token lists, apart from how they are read.

* `IsValue` — a token as the value of a property;
* `Derives` — the tokens of a block derive its items, a `Block`;
* `IsFile` — a token list holds a tree: anything without the word `tree`, the tree, and anything;
* `Derives.unique`, `IsFile.unique` — there is only one derivation;
* `exists_isValue_iff` — which numbers are values, and of what.
-/

/-! ### Derivations -/

/-- A token is the value of a property: a text, a name or a word as it is written, and a number that
    has a digit.  Of a numeral, as all numbers of a file are, the value is the double nearest to the
    number that it writes.  Tokens that do not come from a file may hold other numbers, such as `1e3`,
    which are what they are read as. -/
inductive IsValue : Token → PropertyValue → Prop
  | text {t : Token} : t.kind = .text → IsValue t (.text t.text)
  | name {t : Token} : t.kind = .identifier → IsValue t (.text t.text)
  | word {t : Token} {k : Keyword} : t.kind = .keyword k → IsValue t (.text t.text)
  | numeral {t : Token} {x : Float} : t.kind = .number → Decimal.IsNumeral t.text.toList →
      Decimal.HasDigit t.text.toList →
      Decimal.IsNearest (Decimal.numeralValue t.text.toList) x → IsValue t (.number x)
  | other {t : Token} {x : Float} : t.kind = .number → ¬ Decimal.IsNumeral t.text.toList →
      Decimal.HasDigit t.text.toList → Decimal.readFloat? t.text.toList = some x →
      IsValue t (.number x)

/-- The items of a block in order.  A child has the items of its own block, and then follow the
    other items. -/
inductive Block where
  | nil
  | property (key : String) (value : PropertyValue) (rest : Block)
  | child (word : NodeWord) (line : Nat) (name : String) (body : Block) (rest : Block)

/-- The properties of a block in order, without those of its children. -/
def Block.properties : Block → List (String × PropertyValue)
  | .nil => []
  | .property key value rest => (key, value) :: rest.properties
  | .child _ _ _ _ rest => rest.properties

/-- The tokens between the braces of a block derive its items. -/
inductive Derives : List Token → Block → Prop
  | nil : Derives [] .nil
  | property {key colon t : Token} {v : PropertyValue} {ts : List Token} {rest : Block} :
      key.kind = .identifier → colon.kind = .colon → IsValue t v → Derives ts rest →
      Derives (key :: colon :: t :: ts) (.property key.text v rest)
  | child {word name o c : Token} {w : NodeWord} {ts us : List Token} {body rest : Block} :
      word.kind = .keyword (.node w) → name.kind = .identifier → o.kind = .leftBrace →
      Derives ts body → c.kind = .rightBrace → Derives us rest →
      Derives (word :: name :: o :: (ts ++ c :: us)) (.child w word.line name.text body rest)

/-- A token list holds a tree of this name with this root, a block of the root alone.  Before it
    stands no word `tree`; what follows it is free. -/
inductive IsFile : List Token → String → Block → Prop
  | mk {before after ts : List Token} {tree name o c : Token} {w : NodeWord} {line : Nat}
      {root : String} {body : Block} :
      (∀ t ∈ before, t.kind ≠ .keyword .tree) → tree.kind = .keyword .tree →
      name.kind = .identifier → o.kind = .leftBrace →
      Derives ts (.child w line root body .nil) → c.kind = .rightBrace →
      IsFile (before ++ tree :: name :: o :: (ts ++ c :: after)) name.text
        (.child w line root body .nil)

/-! ### Values -/

/-- Whatever its form, a number with a digit has the value that is read. -/
theorem IsValue.number {t : Token} {x : Float} (hkind : t.kind = .number)
    (hdigit : Decimal.HasDigit t.text.toList) (hx : Decimal.readFloat? t.text.toList = some x) :
    IsValue t (.number x) := by
  by_cases hform : Decimal.IsNumeral t.text.toList
  · exact .numeral hkind hform hdigit (Decimal.isNearest_of_readFloat? hform hx)
  · exact .other hkind hform hdigit hx

/-- A value is a text, or the number that is read from a number with a digit. -/
theorem IsValue.text_or_number {t : Token} {v : PropertyValue} (h : IsValue t v) :
    (t.kind ≠ .number ∧ ∃ s, v = .text s) ∨
      (t.kind = .number ∧ Decimal.HasDigit t.text.toList ∧
        ∃ x, v = .number x ∧ Decimal.readFloat? t.text.toList = some x) := by
  cases h with
  | text hkind | name hkind | word hkind => exact .inl ⟨by rw [hkind]; exact nofun, _, rfl⟩
  | numeral hkind hform hdigit hx =>
    exact .inr ⟨hkind, hdigit, _, rfl, (Decimal.isNearest_iff_readFloat? hform hdigit).1 hx⟩
  | other hkind _ hdigit hx => exact .inr ⟨hkind, hdigit, _, rfl, hx⟩

/-- A number is a value exactly when it has a digit, and then the value is the double nearest to what it
    writes. -/
theorem exists_isValue_iff {t : Token} (hkind : t.kind = .number)
    (hform : Decimal.IsNumeral t.text.toList) :
    ((∃ v, IsValue t v) ↔ Decimal.HasDigit t.text.toList) ∧
      ∀ v, IsValue t v →
        ∃ x, v = .number x ∧ Decimal.IsNearest (Decimal.numeralValue t.text.toList) x := by
  refine ⟨⟨?_, fun hdigit => ?_⟩, fun v h => ?_⟩
  · rintro ⟨v, h⟩
    obtain ⟨hne, -⟩ | ⟨-, hdigit, -⟩ := h.text_or_number
    · exact absurd hkind hne
    · exact hdigit
  · obtain ⟨x, hx⟩ := Option.isSome_iff_exists.1 ((Decimal.isSome_readFloat?_iff hform).2 hdigit)
    exact ⟨.number x, .number hkind hdigit hx⟩
  · obtain ⟨hne, -⟩ | ⟨-, -, x, rfl, hx⟩ := h.text_or_number
    · exact absurd hkind hne
    · exact ⟨x, rfl, Decimal.isNearest_of_readFloat? hform hx⟩

/-- A value is read as what it is. -/
theorem propertyValue_of_isValue {t : Token} {v : PropertyValue} (h : IsValue t v) (key : String)
    (ts : List Token) : propertyValue key (t :: ts) = .ok (v, ts) := by
  cases h with
  | text hkind => simp only [propertyValue, hkind]
  | name hkind => simp only [propertyValue, hkind]
  | word hkind => simp only [propertyValue, hkind]
  | numeral hkind hform hdigit hx =>
    simp only [propertyValue, hkind, (Decimal.isNearest_iff_readFloat? hform hdigit).1 hx]
  | other hkind _ _ hx => simp only [propertyValue, hkind, hx]

theorem IsValue.unique {t : Token} {v v' : PropertyValue} (h : IsValue t v) (h' : IsValue t v') :
    v = v' := by
  have hread := (propertyValue_of_isValue h "" []).symm.trans (propertyValue_of_isValue h' "" [])
  exact (Prod.mk.inj (Except.ok.inj hread)).1

/-! ### Uniqueness -/

/-- Only one derivation fits the tokens up to the brace that closes the block. -/
theorem Derives.unique {ts : List Token} {b : Block} (h : Derives ts b) {ts' : List Token}
    {b' : Block} (h' : Derives ts' b') {c c' : Token} (hc : c.kind = .rightBrace)
    (hc' : c'.kind = .rightBrace) {rest rest' : List Token}
    (heq : ts ++ c :: rest = ts' ++ c' :: rest') : b = b' ∧ rest = rest' := by
  induction h generalizing ts' b' c c' rest rest' with
  | nil =>
    cases h' with
    | nil => exact ⟨rfl, (List.cons.inj heq).2⟩
    | property hkey =>
      obtain rfl := (List.cons.inj heq).1
      rw [hc] at hkey
      exact absurd hkey nofun
    | child hword =>
      obtain rfl := (List.cons.inj heq).1
      rw [hc] at hword
      exact absurd hword nofun
  | @property key colon t v ts b hkey hcolon hv _ ih =>
    cases h' with
    | nil =>
      obtain rfl := (List.cons.inj heq).1
      rw [hc'] at hkey
      exact absurd hkey nofun
    | property _ _ hv' hrest' =>
      simp only [List.cons_append, List.cons.injEq] at heq
      obtain ⟨rfl, rfl, rfl, heq⟩ := heq
      obtain ⟨rfl, hrest⟩ := ih hrest' hc hc' heq
      obtain rfl := hv.unique hv'
      exact ⟨rfl, hrest⟩
    | child hword =>
      obtain rfl := (List.cons.inj heq).1
      rw [hkey] at hword
      exact absurd hword nofun
  | @child word name o e w ts us body b hword hname ho _ he _ ihbody ihrest =>
    cases h' with
    | nil =>
      obtain rfl := (List.cons.inj heq).1
      rw [hc'] at hword
      exact absurd hword nofun
    | property hkey =>
      obtain rfl := (List.cons.inj heq).1
      rw [hword] at hkey
      exact absurd hkey nofun
    | child hword' _ _ hbody' he' hrest' =>
      simp only [List.cons_append, List.append_assoc, List.cons.injEq] at heq
      obtain ⟨rfl, rfl, rfl, heq⟩ := heq
      -- the bodies end at one brace, and what follows them at one brace again
      obtain ⟨rfl, heq⟩ := ihbody hbody' he he' heq
      obtain ⟨rfl, hrest⟩ := ihrest hrest' hc hc' heq
      obtain rfl : w = _ := by simpa using hword.symm.trans hword'
      exact ⟨rfl, hrest⟩

/-- The tokens before the first word `tree` and those from it on. -/
theorem dropWhile_tree {before rest : List Token} {tree : Token}
    (h : ∀ t ∈ before, t.kind ≠ .keyword .tree) (htree : tree.kind = .keyword .tree) :
    (before ++ tree :: rest).dropWhile (·.kind ≠ .keyword .tree) = tree :: rest := by
  rw [List.dropWhile_append_of_pos (fun t ht => by simpa using h t ht),
    List.dropWhile_cons_of_neg (by simp [htree])]

/-- A token list holds one tree at most. -/
theorem IsFile.unique {ts : List Token} {tree tree' : String} {b b' : Block}
    (h : IsFile ts tree b) (h' : IsFile ts tree' b') : tree = tree' ∧ b = b' := by
  generalize hts : ts = us at h'
  cases h with
  | mk hbefore htree hname ho hroot hc =>
    cases h' with
    | mk hbefore' htree' hname' ho' hroot' hc' =>
      have hdrop := congrArg (List.dropWhile (·.kind ≠ .keyword .tree)) hts
      rw [dropWhile_tree hbefore htree, dropWhile_tree hbefore' htree'] at hdrop
      simp only [List.cons.injEq] at hdrop
      obtain ⟨rfl, rfl, rfl, hdrop⟩ := hdrop
      exact ⟨rfl, (hroot.unique hroot' hc hc' hdrop).1⟩

end BehaviorTree.Source
