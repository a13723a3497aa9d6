import BehaviorTree.Proofs.Source.Behavior
import BehaviorTree.Proofs.Source.Recovery

namespace BehaviorTree.Source

/-!
# How far reading looks

Where a reader leaves tokens over, it looked at the first of them at most.  So what a reader gives does
not depend on the tokens behind that one, and a tree that was read does not depend on what follows its
closing brace.

* `StopsBefore` — a reader comes to a token and did not look behind it;
* `StopsBefore.trans` — two readers one after the other;
* `skipBlock_stops`, `skipNode_stops`, `items_stops`, `node_stops` — each reader that leaves a token
  over stops before it;
* `readTokens_stops` — a tree that was read is the same whatever follows its closing brace.
-/

variable {σ τ : Type} {f g k : List Token → σ} {ts after after' : List Token} {t c c' : Token}

/-- From the tokens `ts` the reader `f` comes to the token `c`, and gives what `g` gives from there on.
    Up to here it has not looked at any token behind `c`. -/
def StopsBefore (f g : List Token → σ) (ts : List Token) (c : Token) (after : List Token) : Prop :=
  ∃ used, ts = used ++ c :: after ∧ ∀ other, f (used ++ c :: other) = g (c :: other)

/-! ### Readers in a row -/

theorem StopsBefore.here : StopsBefore f f (c :: after) c after :=
  ⟨[], rfl, fun _ => rfl⟩

/-- Equal readers stop before the same tokens.  They need to be equal only where the first token is the
    same, for this one is never exchanged. -/
theorem StopsBefore.congr (h : StopsBefore g k ts c after)
    (heq : ∀ us, us.head? = ts.head? → f us = g us) : StopsBefore f k ts c after := by
  obtain ⟨used, rfl, hread⟩ := h
  refine ⟨used, rfl, ?_⟩
  intro other
  have hhead : (used ++ c :: other).head? = (used ++ c :: after).head? := by
    cases used <;> rfl
  rw [heq _ hhead, hread]

theorem StopsBefore.cons (h : StopsBefore (fun us => f (t :: us)) g ts c after) :
    StopsBefore f g (t :: ts) c after := by
  obtain ⟨used, rfl, hread⟩ := h
  exact ⟨t :: used, rfl, hread⟩

/-- A reader that takes over where another one stopped. -/
theorem StopsBefore.trans (h : StopsBefore f g ts c after)
    (h' : StopsBefore g k (c :: after) c' after') : StopsBefore f k ts c' after' := by
  obtain ⟨used, rfl, hread⟩ := h
  obtain ⟨used', hsplit, hread'⟩ := h'
  refine ⟨used ++ used', by rw [hsplit, List.append_assoc], ?_⟩
  intro other
  -- the second reader begins at the token that the first one stopped before
  obtain ⟨other', hother⟩ : ∃ other', used' ++ c' :: other = c :: other' := by
    cases used' with
    | nil =>
      obtain ⟨rfl, -⟩ := List.cons.inj hsplit
      exact ⟨other, rfl⟩
    | cons u us =>
      obtain ⟨rfl, -⟩ := List.cons.inj hsplit
      exact ⟨us ++ c' :: other, rfl⟩
  rw [List.append_assoc, hother, hread, ← hother, hread']

theorem StopsBefore.map (φ : σ → τ) (h : StopsBefore f g ts c after) :
    StopsBefore (fun us => φ (f us)) (fun us => φ (g us)) ts c after := by
  obtain ⟨used, rfl, hread⟩ := h
  exact ⟨used, rfl, fun other => congrArg φ (hread other)⟩

/-! ### Skipping -/

theorem skipBlock_stops {inner : Nat} (h : skipBlock inner ts = c :: after) :
    StopsBefore (skipBlock inner) id ts c after := by
  fun_induction skipBlock inner ts with
  | case1 => cases h
  | case2 inner t ts ht ih => exact .cons ((ih h).congr fun us _ => skipBlock_left us ht)
  | case3 t ts ht =>
    subst h
    exact .cons (StopsBefore.here.congr fun us _ => skipBlock_close us ht)
  | case4 t ts ht inner ih => exact .cons ((ih h).congr fun us _ => skipBlock_right us ht)
  | case5 inner t ts hleft hright ih =>
    exact .cons ((ih h).congr fun us _ => skipBlock_plain us ⟨hleft, hright⟩)

theorem skipNode_stops (h : skipNode ts = c :: after) : StopsBefore skipNode id ts c after := by
  fun_induction skipNode ts with
  | case1 => cases h
  | case2 t ts ht =>
    obtain ⟨rfl, rfl⟩ := List.cons.inj h
    refine StopsBefore.here.congr ?_
    intro us hus
    obtain ⟨us, rfl⟩ : ∃ vs, us = t :: vs := List.head?_eq_some_iff.1 hus
    rw [skipNode, ht]
    rfl
  | case3 t ts ht =>
    refine .cons ((skipBlock_stops h).congr ?_)
    intro us _
    rw [skipNode, ht]
  | case4 t ts hright hleft ih =>
    exact .cons ((ih h).congr fun us _ => skipNode_plain us ⟨hleft, hright⟩)

/-! ### What the first tokens decide -/

section

variable {us rest : List Token} {text : String}

theorem item_child_congr (h : item (t :: ts) = .child t ts) (hus : us.head? = ts.head?) :
    item (t :: us) = .child t us := by
  by_cases hname : t.kind = .identifier
  · apply item_name hname
    intro u hu hcolon
    rw [hus] at hu
    obtain ⟨vs, rfl⟩ := List.head?_eq_some_iff.1 hu
    rw [item_property hname hcolon] at h
    cases h
  · obtain ⟨kind, line, text⟩ := t
    cases kind with
    | keyword k => rfl
    | identifier => exact absurd rfl hname
    | _ => cases h

theorem item_stray_congr (h : item ts = .stray t) (hus : us.head? = ts.head?) :
    item us = .stray t := by
  unfold item at h
  split at h
  case h_6 u vs hclose hproperty hname hword =>
    obtain ⟨ws, rfl⟩ := List.head?_eq_some_iff.1 hus
    obtain rfl := Item.stray.inj h
    obtain ⟨kind, line, text⟩ := u
    cases kind with
    | rightBrace => exact (hclose _ _ rfl).elim
    | identifier => exact (hname _ _ rfl).elim
    | keyword k => exact (hword _ _ _ rfl).elim
    | _ => rfl
  all_goals cases h

/-- Whether a token is a value, and which, does not depend on the tokens after it. -/
theorem propertyValue_cons (text : String) (t : Token) (ts : List Token) :
    propertyValue text (t :: ts) = (propertyValue text [t]).map fun read => (read.1, ts) := by
  unfold propertyValue
  dsimp only
  cases t.kind with
  | number =>
    dsimp only
    cases Decimal.readFloat? t.text.toList <;> rfl
  | _ => rfl

theorem propertyValue_error_congr {wrong : Diagnostic} (h : propertyValue text ts = .error wrong)
    (hus : us.head? = ts.head?) : propertyValue text us = .error wrong := by
  cases ts with
  | nil =>
    obtain rfl := List.head?_eq_none_iff.1 hus
    exact h
  | cons t ts =>
    obtain ⟨us, rfl⟩ := List.head?_eq_some_iff.1 hus
    rw [propertyValue_cons] at h ⊢
    cases hread : propertyValue text [t] with
    | error wrong' => rw [hread] at h; exact h
    | ok read => rw [hread] at h; cases h

theorem propertyValue_ok {v : PropertyValue} (h : propertyValue text ts = .ok (v, rest)) :
    ∃ t, ts = t :: rest ∧ ∀ us, propertyValue text (t :: us) = .ok (v, us) := by
  cases ts with
  | nil => cases h
  | cons t ts =>
    rw [propertyValue_cons] at h
    cases hread : propertyValue text [t] with
    | error wrong => rw [hread] at h; cases h
    | ok read =>
      rw [hread] at h
      obtain ⟨rfl, rfl⟩ := Prod.mk.inj (Except.ok.inj h)
      refine ⟨t, rfl, ?_⟩
      intro us
      rw [propertyValue_cons, hread]
      rfl

theorem opening_nameless_congr (h : opening ts = .nameless) (hus : us.head? = ts.head?) :
    opening us = .nameless := by
  cases us with
  | nil => rfl
  | cons u us =>
    apply opening_nameless
    intro hname
    obtain ⟨vs, rfl⟩ := List.head?_eq_some_iff.1 hus.symm
    obtain ⟨kind, line, text⟩ := u
    obtain rfl : kind = _ := hname
    unfold opening at h
    split at h <;> simp_all

theorem opening_bare_congr (h : opening ts = .bare text rest) :
    ∃ name, ts = name :: rest ∧
      ∀ us, us.head? = rest.head? → opening (name :: us) = .bare text us := by
  unfold opening at h
  split at h
  case h_2 line name vs hbrace =>
    obtain ⟨rfl, rfl⟩ := Opening.bare.inj h
    refine ⟨_, rfl, ?_⟩
    intro us hus
    apply opening_bare rfl
    intro u hu hleft
    rw [hus] at hu
    obtain ⟨ws, rfl⟩ := List.head?_eq_some_iff.1 hu
    obtain ⟨kind, line', text'⟩ := u
    obtain rfl : kind = _ := hleft
    exact hbrace _ _ _ rfl
  all_goals cases h

end

/-! ### Nodes -/

variable {β η : Type} [Behavior β η] {r : Registry β η} {s s' : Site η}

/-- A reader of nodes or blocks, from the tokens `ts` on, gives `value` and finds what `site` says, and
    stops before the first token that it leaves over. -/
def PartsStop {α : Type} (read : List Token → α × List Token × Site η) (value : α) (site : Site η)
    (ts : List Token) (c : Token) (after : List Token) : Prop :=
  StopsBefore read (fun us => (value, us, site)) ts c after

/-- A wrong part that is skipped. -/
theorem PartsStop.skipped {α : Type} {value : Option α} {skip : List Token → List Token}
    (hskip : ∀ {c after}, skip ts = c :: after → StopsBefore skip id ts c after)
    (h : ((none, skip ts, s) : Option α × List Token × Site η) = (value, c :: after, s')) :
    PartsStop (fun us => (none, skip us, s)) value s' ts c after := by
  obtain ⟨rfl, hrest, rfl⟩ : none = value ∧ skip ts = c :: after ∧ s = s' := by simpa using h
  exact (hskip hrest).map fun us => (none, us, s)

/-- Building leaves the tokens alone. -/
theorem buildParts_rest {d? : Option (Declaration β)} {rest rest' : List Token}
    {value : Option (Node β)} (h : buildParts r (d?, rest, s) = (value, rest', s')) :
    rest = rest' ∧ ∀ us, buildParts r (d?, us, s) = (value, us, s') := by
  cases d? with
  | none =>
    obtain ⟨rfl, rfl, rfl⟩ : none = value ∧ rest = rest' ∧ s = s' := by simpa [buildParts] using h
    exact ⟨rfl, fun _ => rfl⟩
  | some d =>
    obtain ⟨rfl, rfl, rfl⟩ : (d.build r s).1 = value ∧ rest = rest' ∧ (d.build r s).2 = s' := by
      simpa [buildParts] using h
    exact ⟨rfl, fun _ => rfl⟩

/-- The recursion from a node into its block. -/
theorem node_stops_of {value : Option (Node β)}
    (hitems : ∀ {d : Declaration β} {body : List Token} {value : Option (Declaration β)}
      {s' : Site η}, body.length < ts.length → (items r d body s).parts = (value, c :: after, s') →
        PartsStop (fun us => (items r d us s).parts) value s' body c after)
    (h : (node r t ts s).parts = (value, c :: after, s')) :
    PartsStop (fun us => (node r t us s).parts) value s' ts c after := by
  by_cases hword : ∃ word, t.kind = .keyword (.node word)
  · obtain ⟨word, hkind⟩ := hword
    cases hopen : opening ts with
    | block text body =>
      have hlt := length_of_opening_block hopen
      rw [node_block hkind hopen] at h
      obtain ⟨name, o, rfl, hname, rfl, ho⟩ := block_of_opening hopen
      -- the node is built from what its block gives, whatever follows the block
      obtain ⟨⟨d?, rest, site⟩, hparts⟩ :
          ∃ parts, (items r ⟨word, name.text, t.line, [], []⟩ body s).parts = parts := ⟨_, rfl⟩
      rw [hparts] at h
      obtain ⟨rfl, hbuild⟩ := buildParts_rest h
      have hbody := (hitems hlt hparts).map (buildParts r)
      rw [funext hbuild] at hbody
      refine .cons (.cons (hbody.congr ?_))
      intro us _
      exact node_block hkind (opening_block hname ho us)
    | bare text rest =>
      rw [node_bare hkind hopen] at h
      obtain ⟨name, rfl, hbare⟩ := opening_bare_congr hopen
      refine .cons ((PartsStop.skipped skipNode_stops h).congr ?_)
      intro us hus
      exact node_bare hkind (hbare us hus)
    | nameless =>
      rw [node_nameless hkind hopen] at h
      refine (PartsStop.skipped skipNode_stops h).congr ?_
      intro us hus
      exact node_nameless hkind (opening_nameless_congr hopen hus)
  · have hword' : ∀ word, t.kind ≠ .keyword (.node word) := fun word hw => hword ⟨word, hw⟩
    by_cases hname : t.kind = .identifier
    · rw [node_unknown hname] at h
      exact (PartsStop.skipped skipNode_stops h).congr fun us _ => node_unknown hname
    · rw [node_unexpected hword' hname] at h
      exact (PartsStop.skipped skipNode_stops h).congr fun us _ => node_unexpected hword' hname

/-- The items of a block that leave a token over stop before it. -/
theorem items_stops {d : Declaration β} {ts after : List Token} {c : Token} {s s' : Site η}
    {value : Option (Declaration β)}
    (h : (items r d ts s).parts = (value, c :: after, s')) :
    PartsStop (fun us => (items r d us s).parts) value s' ts c after := by
  cases hitem : item ts with
  | ended =>
    rw [items_ended hitem] at h
    cases h
  | close rest =>
    obtain ⟨e, rfl, he⟩ := close_of_item hitem
    rw [items_close hitem] at h
    cases h
    exact .cons (StopsBefore.here.congr fun us _ => items_close (item_close he us))
  | property text rest =>
    have hrest := length_of_item_property hitem
    obtain ⟨key, colon, rfl, hkey, rfl, hcolon⟩ := property_of_item hitem
    cases hv : propertyValue key.text rest with
    | error wrong =>
      rw [items_malformed hitem hv] at h
      refine .cons (.cons ((PartsStop.skipped skipBlock_stops h).congr ?_))
      intro us hus
      exact items_malformed (item_property hkey hcolon us) (propertyValue_error_congr hv hus)
    | ok read =>
      obtain ⟨v, body⟩ := read
      have hbody := length_of_propertyValue hv
      rw [items_property hitem hv] at h
      obtain ⟨t, rfl, hvalue⟩ := propertyValue_ok hv
      refine .cons (.cons (.cons ((items_stops h).congr ?_)))
      intro us _
      exact items_property (item_property hkey hcolon (t :: us)) (hvalue us)
  | child t rest =>
    have hrest := length_of_item_child hitem
    have hle := (node r t rest s).length_le
    have hts := child_of_item hitem
    obtain ⟨⟨child, left, site⟩, hchild⟩ : ∃ parts, (node r t rest s).parts = parts := ⟨_, rfl⟩
    rw [items_child_of_parts hitem hchild] at h
    rw [Step.rest_eq hchild] at hle
    cases left with
    | nil =>
      -- the child came to the end of the input, so the block is not closed
      rw [items_ended rfl] at h
      cases h
    | cons c₁ after₁ =>
      have hlt : (c₁ :: after₁).length < ts.length := Nat.lt_of_le_of_lt hle hrest
      have hnode := node_stops_of (fun _ hitems => items_stops hitems) hchild
      have hnext := items_stops h
      -- the block goes on with what the child gave, from where the child stopped
      have hgoOn := hnode.map fun p : Option (Node β) × List Token × Site η =>
        (items r { d with children := d.children ++ p.1.toList } p.2.1 p.2.2).parts
      rw [hts] at hitem ⊢
      refine .trans (.cons (hgoOn.congr ?_)) hnext
      intro us hus
      exact items_child (item_child_congr hitem hus)
  | stray t =>
    rw [items_stray hitem] at h
    refine (PartsStop.skipped skipBlock_stops h).congr ?_
    intro us hus
    exact items_stray (item_stray_congr hitem hus)
termination_by ts.length

/-- A node that leaves a token over stops before it. -/
theorem node_stops {value : Option (Node β)} (h : (node r t ts s).parts = (value, c :: after, s')) :
    PartsStop (fun us => (node r t us s).parts) value s' ts c after :=
  node_stops_of (fun _ hitems => items_stops hitems) h

/-! ### Trees -/

/-- The body of a tree is read up to its closing brace. -/
theorem treeBody_stops {line : Nat} {tree : String} {body : List Token} {root : Node β}
    (h : (treeBody r line tree s body).result = .ok root) :
    ∃ used c after, body = used ++ c :: after ∧ c.kind = .rightBrace ∧
      ∀ other, treeBody r line tree s (used ++ c :: other) = treeBody r line tree s body := by
  obtain ⟨t, ts, m, c, after, site, rfl, hparts, hc, hfinish⟩ := treeBody_ok h
  obtain ⟨used, rfl, hread⟩ := node_stops hparts
  refine ⟨t :: used, c, after, rfl, hc, ?_⟩
  intro other
  have ht : t.kind ≠ .rightBrace := by
    intro ht
    simp only [treeBody, if_pos ht] at h
    cases h
  rw [hfinish, List.cons_append, treeBody_some ht (hread other), if_pos hc]

/-- A tree that was read does not depend on what follows its closing brace.  Whatever was reported and
    left out, nothing behind that brace was looked at: with other tokens after it, more or fewer, the
    tree is the same, the same problems are found in the same order, and the factories do the same. -/
theorem readTokens_stops {shop : Workshop η} {root : Node β}
    (h : (readTokens r ts shop).result = .ok root) :
    (∀ extra, readTokens r (ts ++ extra) shop = readTokens r ts shop) ∧
    ∃ used c after, ts = used ++ c :: after ∧ c.kind = .rightBrace ∧
      ∀ other, readTokens r (used ++ c :: other) shop = readTokens r ts shop := by
  obtain ⟨before, word, name, o, body, rfl, hbefore, hword, hname, ho, hbody⟩ := readTokens_ok h
  rw [hbody] at h
  obtain ⟨used, c, after, rfl, hc, hstop⟩ := treeBody_stops h
  have hread : ∀ other, readTokens r (before ++ word :: name :: o :: (used ++ c :: other)) shop =
      readTokens r (before ++ word :: name :: o :: (used ++ c :: after)) shop := by
    intro other
    rw [hbody, ← hstop other]
    simp only [readTokens, dropWhile_tree hbefore hword, treeAfter, opening_block hname ho]
  constructor
  · intro extra
    have happend := hread (after ++ extra)
    simpa only [List.append_assoc, List.cons_append] using happend
  · refine ⟨before ++ word :: name :: o :: used, c, after, by simp, hc, ?_⟩
    intro other
    have hother := hread other
    simpa only [List.append_assoc, List.cons_append] using hother

/-- A pause with a child that is not known and is left out. -/
def disturbedNap : List Token :=
  napTokens 1 [⟨.identifier, 2, "Fly"⟩, ⟨.identifier, 2, "up"⟩, ⟨.leftBrace, 2, "\x7b"⟩,
    ⟨.rightBrace, 2, "\x7d"⟩, ⟨.rightBrace, 3, "\x7d"⟩, ⟨.rightBrace, 1, "\x7d"⟩]

/-- A name with a colon, which would be the key of a property if it still belonged to the tree, and a
    brace too many change nothing after it. -/
theorem disturbedNap_read :
    (readTokens (Registry.withBuiltins id) disturbedNap ⟨0, ()⟩).result = .ok (napping 0 []) ∧
      (readTokens (Registry.withBuiltins id) disturbedNap ⟨0, ()⟩).errors = 1 ∧
      readTokens (Registry.withBuiltins id)
          (disturbedNap ++ [⟨.identifier, 4, "Fly"⟩, ⟨.colon, 4, ":"⟩, ⟨.rightBrace, 4, "\x7d"⟩])
          ⟨0, ()⟩ =
        readTokens (Registry.withBuiltins id) disturbedNap ⟨0, ()⟩ := by
  have hread : (readTokens (Registry.withBuiltins id) disturbedNap ⟨0, ()⟩).result =
        .ok (napping 0 []) ∧
      (readTokens (Registry.withBuiltins id) disturbedNap ⟨0, ()⟩).errors = 1 := by
    refine readTokens_nap [{ fault := .wordUnknown "Fly", line := some 2 }] 1 ?_
    rw [items_child_of_parts rfl (node_unknown rfl), items_close rfl]
    rfl
  exact ⟨hread.1, hread.2, (readTokens_stops hread.1).1 _⟩

end BehaviorTree.Source
