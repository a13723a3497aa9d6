import BehaviorTree.Source.Tree
import Mathlib.Data.List.TakeWhile

namespace BehaviorTree.Source

/-!
# The steps of reading a block

The readers of nodes and blocks carry the bound that ends their recursion.  `Step.parts` leaves it
out, and each case of the readers is an equation between parts.

* `item_close`, `item_property`, `item_child`, `opening_block` — what some tokens begin, and
  `close_of_item`, `property_of_item`, `child_of_item`, `block_of_opening` back again;
* `items_close`, `items_ended`, `items_property`, `items_malformed`, `items_child_of_parts`,
  `items_stray` — one equation for each thing that can come next in a block;
* `node_block`, `node_bare`, `node_nameless`, `node_unknown`, `node_unexpected` — one equation for
  each thing that a node can begin with;
* `treeBody_ok`, `readTokens_ok` — what stands in a file from which a tree is read.
-/

section

variable {α η : Type} {bound : Nat}

/-- What a step gave, the tokens that it left, and the site. -/
def Step.parts (p : Step α η bound) : α × List Token × Site η := (p.value, p.rest, p.site)

theorem Step.value_eq {p : Step α η bound} {a : α} {ts : List Token} {s : Site η}
    (h : p.parts = (a, ts, s)) : p.value = a := congrArg Prod.fst h

theorem Step.rest_eq {p : Step α η bound} {a : α} {ts : List Token} {s : Site η}
    (h : p.parts = (a, ts, s)) : p.rest = ts := congrArg (fun q => q.2.1) h

theorem Step.site_eq {p : Step α η bound} {a : α} {ts : List Token} {s : Site η}
    (h : p.parts = (a, ts, s)) : p.site = s := congrArg (fun q => q.2.2) h

theorem Step.value_congr {bound' : Nat} {p : Step α η bound} {q : Step α η bound'}
    (h : p.parts = q.parts) : p.value = q.value := congrArg Prod.fst h

theorem Step.rest_congr {bound' : Nat} {p : Step α η bound} {q : Step α η bound'}
    (h : p.parts = q.parts) : p.rest = q.rest := congrArg (fun x => x.2.1) h

theorem Step.site_congr {bound' : Nat} {p : Step α η bound} {q : Step α η bound'}
    (h : p.parts = q.parts) : p.site = q.site := congrArg (fun x => x.2.2) h

end

/-! ### Tokens at the beginning -/

section

variable {c key colon word name o : Token} {ts rest body : List Token}

theorem item_close (hc : c.kind = .rightBrace) (ts : List Token) : item (c :: ts) = .close ts := by
  obtain ⟨kind, line, text⟩ := c
  obtain rfl : kind = _ := hc
  rfl

theorem item_property (hkey : key.kind = .identifier) (hcolon : colon.kind = .colon)
    (ts : List Token) : item (key :: colon :: ts) = .property key.text ts := by
  obtain ⟨kind, line, text⟩ := key
  obtain ⟨kind', line', text'⟩ := colon
  obtain rfl : kind = _ := hkey
  obtain rfl : kind' = _ := hcolon
  rfl

theorem item_child {k : Keyword} (hword : word.kind = .keyword k) (ts : List Token) :
    item (word :: ts) = .child word ts := by
  obtain ⟨kind, line, text⟩ := word
  obtain rfl : kind = _ := hword
  rfl

theorem opening_block (hname : name.kind = .identifier) (ho : o.kind = .leftBrace)
    (ts : List Token) : opening (name :: o :: ts) = .block name.text ts := by
  obtain ⟨kind, line, text⟩ := name
  obtain ⟨kind', line', text'⟩ := o
  obtain rfl : kind = _ := hname
  obtain rfl : kind' = _ := ho
  rfl

theorem close_of_item (h : item ts = .close rest) :
    ∃ c, ts = c :: rest ∧ c.kind = .rightBrace := by
  unfold item at h
  split at h <;> simp_all

theorem property_of_item {text : String} (h : item ts = .property text rest) :
    ∃ key colon, ts = key :: colon :: rest ∧ key.kind = .identifier ∧ key.text = text ∧
      colon.kind = .colon := by
  unfold item at h
  split at h
  case h_3 =>
    obtain ⟨rfl, rfl⟩ := Item.property.inj h
    exact ⟨_, _, rfl, rfl, rfl, rfl⟩
  all_goals exact absurd h nofun

theorem child_of_item (h : item ts = .child word rest) : ts = word :: rest := by
  unfold item at h
  split at h <;> simp_all

theorem block_of_opening {text : String} (h : opening ts = .block text body) :
    ∃ name o, ts = name :: o :: body ∧ name.kind = .identifier ∧ name.text = text ∧
      o.kind = .leftBrace := by
  unfold opening at h
  split at h
  case h_1 =>
    obtain ⟨rfl, rfl⟩ := Opening.block.inj h
    exact ⟨_, _, rfl, rfl, rfl, rfl⟩
  all_goals exact absurd h nofun

theorem bare_of_opening {text : String} (h : opening ts = .bare text rest) :
    ∃ name, ts = name :: rest ∧ name.kind = .identifier := by
  unfold opening at h
  split at h
  case h_2 =>
    obtain ⟨-, rfl⟩ := Opening.bare.inj h
    exact ⟨_, rfl, rfl⟩
  all_goals exact absurd h nofun

theorem nil_of_item (h : item ts = .ended) : ts = [] := by
  unfold item at h
  split at h <;> simp_all

end

variable {β η : Type} [Behavior β η] {r : Registry β η} {d : Declaration β} {s : Site η}
  {t : Token} {ts rest body : List Token}

/-! ### What comes next in a block -/

theorem items_ended (h : item ts = .ended) :
    (items r d ts s).parts =
      (none, [], s.report { fault := .inputEnded, line := some d.line, node := some d.name }) := by
  rw [items]
  split <;> simp_all [Step.parts]

theorem items_close (h : item ts = .close rest) : (items r d ts s).parts = (some d, rest, s) := by
  rw [items]
  split <;> simp_all [Step.parts]

theorem items_stray (h : item ts = .stray t) :
    (items r d ts s).parts =
      (none, skipBlock 0 ts,
        s.report { fault := .unexpected t.kind, line := some t.line, node := some d.name }) := by
  rw [items]
  split <;> simp_all [Step.parts]

theorem items_malformed {key : String} {wrong : Diagnostic} (h : item ts = .property key rest)
    (hv : propertyValue key rest = .error wrong) :
    (items r d ts s).parts = (none, skipBlock 0 rest, s.report wrong) := by
  rw [items]
  split
  case h_3 key' rest' h' =>
    obtain ⟨rfl, rfl⟩ := Item.property.inj (h.symm.trans h')
    split
    · next wrong' hv' =>
      obtain rfl := Except.error.inj (hv.symm.trans hv')
      rfl
    · next v rest' hv' => cases hv.symm.trans hv'
  all_goals simp_all

theorem items_property {key : String} {v : PropertyValue} (h : item ts = .property key rest)
    (hv : propertyValue key rest = .ok (v, body)) :
    (items r d ts s).parts =
      (items r { d with properties := d.properties ++ [(key, v)] } body s).parts := by
  rw [items]
  split
  case h_3 key' rest' h' =>
    obtain ⟨rfl, rfl⟩ := Item.property.inj (h.symm.trans h')
    split
    · next wrong hv' => cases hv.symm.trans hv'
    · next v' body' hv' =>
      obtain ⟨rfl, rfl⟩ := Prod.mk.inj (Except.ok.inj (hv.symm.trans hv'))
      rfl
  all_goals simp_all

theorem items_child (h : item ts = .child t rest) :
    (items r d ts s).parts =
      (items r { d with children := d.children ++ (node r t rest s).value.toList }
        (node r t rest s).rest (node r t rest s).site).parts := by
  rw [items]
  split
  case h_4 t' rest' h' =>
    obtain ⟨rfl, rfl⟩ := Item.child.inj (h.symm.trans h')
    rfl
  all_goals simp_all

/-- After a child the block goes on where the child ended, with what the child gave. -/
theorem items_child_of_parts {child : Option (Node β)} {after : List Token} {site : Site η}
    (h : item ts = .child t rest) (hchild : (node r t rest s).parts = (child, after, site)) :
    (items r d ts s).parts =
      (items r { d with children := d.children ++ child.toList } after site).parts := by
  rw [items_child h, Step.value_eq hchild, Step.rest_eq hchild, Step.site_eq hchild]

/-! ### What a node begins with -/

/-- The node of a block that was read: it is built if the block gave a declaration. -/
def buildParts (r : Registry β η) :
    Option (Declaration β) × List Token × Site η → Option (Node β) × List Token × Site η
  | (none, rest, s) => (none, rest, s)
  | (some d, rest, s) => ((d.build r s).1, rest, (d.build r s).2)

/-- Building leaves the tokens alone. -/
theorem buildParts_tokens (r : Registry β η)
    (p : Option (Declaration β) × List Token × Site η) : (buildParts r p).2.1 = p.2.1 := by
  obtain ⟨d?, rest, s⟩ := p
  cases d? <;> rfl

/-- A node with a name and a block is built from what its block gives. -/
theorem node_block {word : NodeWord} {name : String} (hkind : t.kind = .keyword (.node word))
    (h : opening ts = .block name body) :
    (node r t ts s).parts =
      buildParts r
        (items r { word, name, line := t.line, properties := [], children := [] } body s).parts := by
  rw [node]
  split
  case h_1 word' hword =>
    obtain rfl := Keyword.node.inj (TokenKind.keyword.inj (hkind.symm.trans hword))
    split
    · next name' body' h' =>
      obtain ⟨rfl, rfl⟩ := Opening.block.inj (h.symm.trans h')
      dsimp only [Step.parts]
      split <;> simp_all [buildParts]
    · next h' => cases h.symm.trans h'
    · next h' => cases h.symm.trans h'
  all_goals simp_all

theorem node_bare {word : NodeWord} {name : String} (hkind : t.kind = .keyword (.node word))
    (h : opening ts = .bare name rest) :
    (node r t ts s).parts =
      (none, skipNode rest,
        s.report { fault := .braceMissing, line := some t.line, node := some name }) := by
  rw [node]
  split
  case h_1 word' hword =>
    split <;> simp_all [Step.parts]
  all_goals simp_all

theorem node_nameless {word : NodeWord} (hkind : t.kind = .keyword (.node word))
    (h : opening ts = .nameless) :
    (node r t ts s).parts =
      (none, skipNode ts, s.report { fault := .nameMissing word, line := some t.line }) := by
  rw [node]
  split
  case h_1 word' hword =>
    obtain rfl := Keyword.node.inj (TokenKind.keyword.inj (hkind.symm.trans hword))
    split <;> simp_all [Step.parts]
  all_goals simp_all

theorem node_unknown (hkind : t.kind = .identifier) :
    (node r t ts s).parts =
      (none, skipNode ts, s.report { fault := .wordUnknown t.text, line := some t.line }) := by
  rw [node]
  split <;> simp_all [Step.parts]

theorem node_unexpected (hword : ∀ word, t.kind ≠ .keyword (.node word))
    (hname : t.kind ≠ .identifier) :
    (node r t ts s).parts =
      (none, skipNode ts, s.report { fault := .wordExpected t.kind, line := some t.line }) := by
  rw [node]
  split <;> simp_all [Step.parts]

/-! ### Trees -/

section

variable {line : Nat} {tree : String} {s' : Site η}

theorem treeBody_none (ht : t.kind ≠ .rightBrace) (h : (node r t ts s).parts = (none, rest, s')) :
    treeBody r line tree s (t :: ts) = fail (.malformed line (.rootInvalid tree)) s' := by
  simp only [treeBody, if_neg ht, Step.value_eq h, Step.site_eq h]

theorem treeBody_open {root : Node β} (ht : t.kind ≠ .rightBrace)
    (h : (node r t ts s).parts = (some root, [], s')) :
    treeBody r line tree s (t :: ts) = fail (.malformed line (.treeOpen tree)) s' := by
  simp only [treeBody, if_neg ht, Step.value_eq h, Step.rest_eq h, Step.site_eq h]

theorem treeBody_some {root : Node β} {c : Token} (ht : t.kind ≠ .rightBrace)
    (h : (node r t ts s).parts = (some root, c :: rest, s')) :
    treeBody r line tree s (t :: ts) =
      if c.kind = .rightBrace then finish tree root s'
      else fail (.malformed c.line (.treeOpen tree)) s' := by
  simp only [treeBody, if_neg ht, Step.value_eq h, Step.rest_eq h, Step.site_eq h]

/-- A block gives a tree only if it holds a node that was read, and then the brace that closes it. -/
theorem treeBody_ok {body : List Token} {root : Node β}
    (h : (treeBody r line tree s body).result = .ok root) :
    ∃ t ts m c after s', body = t :: ts ∧ (node r t ts s).parts = (some m, c :: after, s') ∧
      c.kind = .rightBrace ∧ treeBody r line tree s body = finish tree m s' := by
  cases body with
  | nil => cases h
  | cons t ts =>
    by_cases ht : t.kind = .rightBrace
    · rw [treeBody, if_pos ht] at h
      cases h
    obtain ⟨⟨value, rest, s'⟩, hparts⟩ : ∃ parts, (node r t ts s).parts = parts := ⟨_, rfl⟩
    cases value with
    | none =>
      rw [treeBody_none ht hparts] at h
      cases h
    | some m =>
      cases rest with
      | nil =>
        rw [treeBody_open ht hparts] at h
        cases h
      | cons c after =>
        rw [treeBody_some ht hparts] at h ⊢
        by_cases hc : c.kind = .rightBrace
        · exact ⟨t, ts, m, c, after, s', rfl, hparts, hc, if_pos hc⟩
        · rw [if_neg hc] at h
          cases h

/-- Tokens give a tree only if there is the word `tree` among them, and after the first one a name and
    a block that gives it. -/
theorem readTokens_ok {ts : List Token} {shop : Workshop η} {root : Node β}
    (h : (readTokens r ts shop).result = .ok root) :
    ∃ before word name o body, ts = before ++ word :: name :: o :: body ∧
      (∀ t ∈ before, t.kind ≠ .keyword .tree) ∧ word.kind = .keyword .tree ∧
      name.kind = .identifier ∧ o.kind = .leftBrace ∧
      readTokens r ts shop = treeBody r word.line name.text { shop } body := by
  have hsplit := List.takeWhile_append_dropWhile (p := fun t : Token => t.kind ≠ .keyword .tree)
    (l := ts)
  have hbefore : ∀ t ∈ ts.takeWhile (·.kind ≠ .keyword .tree), t.kind ≠ .keyword .tree :=
    fun t ht => by simpa using List.mem_takeWhile_imp ht
  unfold readTokens at h ⊢
  cases hdrop : ts.dropWhile (·.kind ≠ .keyword .tree) with
  | nil =>
    rw [hdrop] at h
    exact absurd h nofun
  | cons word us =>
    -- nothing before it is the word, and it is
    have hword : word.kind = .keyword .tree := by
      have hhead := List.head?_dropWhile_not (fun t : Token => t.kind ≠ .keyword .tree) ts
      rw [hdrop] at hhead
      simpa using hhead
    rw [hdrop] at h hsplit
    dsimp only [treeAfter] at h
    cases hopen : opening us with
    | bare text rest =>
      rw [hopen] at h
      exact absurd h nofun
    | nameless =>
      rw [hopen] at h
      exact absurd h nofun
    | block text body =>
      obtain ⟨name, o, rfl, hname, rfl, ho⟩ := block_of_opening hopen
      refine ⟨_, word, name, o, body, hsplit.symm, hbefore, hword, hname, ho, ?_⟩
      simp only [treeAfter, opening_block hname ho]

end

end BehaviorTree.Source
