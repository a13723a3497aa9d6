import BehaviorTree.Proofs.Source.Braces
import BehaviorTree.Proofs.Source.Steps

namespace BehaviorTree.Source

/-!
# How far a node extends

A reader that comes back has passed over some tokens.  Whatever was wrong among them, every block that
was opened by them is closed by them, unless the input is at its end, and none that had been open before
is closed.

* `Leads` — a reader passes from some open blocks to others;
* `skipBlock_leads`, `skipNode_leads`, `items_leads`, `node_leads` — where each reader leads to;
* `IsExtent` — what the tokens of a node are like;
* `node_extent` — every node, read or not, has such an extent.
-/

/-! ### Readers -/

/-- From `ts` a reader comes to `rest`: with `depth` blocks open it ends with `depth'` blocks open or at
    the end of the input, and on its way it closes no other block. -/
def Leads (depth depth' : Nat) (ts rest : List Token) : Prop :=
  ∃ used left, ts = used ++ rest ∧ nesting depth used = some left ∧ (rest = [] ∨ left = depth')

section

variable {a b c : Nat} {ts mid rest : List Token} {t : Token}

theorem Leads.here : Leads a a ts ts := ⟨[], a, rfl, rfl, .inr rfl⟩

theorem Leads.ended : Leads a b [] [] := ⟨[], a, rfl, rfl, .inl rfl⟩

theorem Leads.plain (ht : t.kind.IsPlain) (h : Leads a b ts rest) : Leads a b (t :: ts) rest := by
  obtain ⟨used, left, rfl, hused, hend⟩ := h
  exact ⟨t :: used, left, rfl, by rw [nesting_plain _ ht, hused], hend⟩

theorem Leads.left (ht : t.kind = .leftBrace) (h : Leads (a + 1) b ts rest) :
    Leads a b (t :: ts) rest := by
  obtain ⟨used, left, rfl, hused, hend⟩ := h
  exact ⟨t :: used, left, rfl, by rw [nesting_left _ ht, hused], hend⟩

theorem Leads.right (ht : t.kind = .rightBrace) (h : Leads a b ts rest) :
    Leads (a + 1) b (t :: ts) rest := by
  obtain ⟨used, left, rfl, hused, hend⟩ := h
  exact ⟨t :: used, left, rfl, by rw [nesting_right _ ht, hused], hend⟩

/-- A reader that takes over where another one stopped. -/
theorem Leads.trans (h : Leads a b ts mid) (h' : Leads b c mid rest) : Leads a c ts rest := by
  obtain ⟨used, left, rfl, hused, hend⟩ := h
  obtain ⟨used', left', rfl, hused', hend'⟩ := h'
  rcases hend with hend | rfl
  · -- the first reader came to the end of the input, so the second one read nothing
    obtain ⟨rfl, rfl⟩ := List.append_eq_nil_iff.1 hend
    exact ⟨used, left, rfl, hused, .inl rfl⟩
  · refine ⟨used ++ used', left', by rw [List.append_assoc], ?_, hend'⟩
    rw [nesting_append, hused]
    exact hused'

theorem Leads.inside (more : Nat) (h : Leads a b ts rest) : Leads (a + more) (b + more) ts rest := by
  obtain ⟨used, left, rfl, hused, hend⟩ := h
  exact ⟨used, left + more, rfl, nesting_add more hused, hend.imp_right (congrArg (· + more))⟩

end

/-! ### Skipping -/

/-- The rest of a block is skipped up to the brace that closes it. -/
theorem skipBlock_leads (inner : Nat) (ts : List Token) :
    Leads (inner + 1) 0 ts (skipBlock inner ts) := by
  fun_induction skipBlock inner ts with
  | case1 => exact .ended
  | case2 inner t ts ht ih => exact .left ht ih
  | case3 t ts ht => exact .right ht .here
  | case4 t ts ht inner ih => exact .right ht ih
  | case5 inner t ts hleft hright ih => exact .plain ⟨hleft, hright⟩ ih

/-- A node without a block of its own is skipped up to the brace that closes the block around it, and
    any other through its block. -/
theorem skipNode_leads (ts : List Token) : Leads 0 0 ts (skipNode ts) := by
  fun_induction skipNode ts with
  | case1 => exact .ended
  | case2 t ts ht => exact .here
  | case3 t ts ht => exact .left ht (skipBlock_leads 0 ts)
  | case4 t ts hright hleft ih => exact .plain ⟨hleft, hright⟩ ih

/-! ### Nodes -/

section

variable {key text : String} {v : PropertyValue} {t : Token} {ts rest : List Token}

/-- A child begins with a name or a word. -/
theorem plain_of_item_child (h : item ts = .child t rest) : t.kind.IsPlain := by
  unfold item at h
  split at h
  case h_4 =>
    obtain ⟨rfl, -⟩ := Item.child.inj h
    exact TokenKind.isPlain_identifier
  case h_5 =>
    obtain ⟨rfl, -⟩ := Item.child.inj h
    exact TokenKind.isPlain_keyword _
  all_goals cases h

/-- No brace is a value. -/
theorem propertyValue_leads {depth : Nat} (h : propertyValue key ts = .ok (v, rest)) :
    Leads depth depth ts rest := by
  unfold propertyValue at h
  split at h
  · cases h
  · next t ts =>
    rcases t.kind.brace_cases with ht | ht | ht
    · rw [ht] at h
      cases h
    · rw [ht] at h
      cases h
    · obtain rfl : ts = rest := by
        split at h
        · simp_all
        · simp_all
        · simp_all
        · split at h <;> simp_all
        · cases h
      exact .plain ht .here

end

variable {β η : Type} [Behavior β η] {r : Registry β η}

/-- The recursion from a node into its block. -/
theorem node_leads_of {t : Token} {ts : List Token} {s : Site η}
    (hitems : ∀ (d : Declaration β) (body : List Token), body.length < ts.length →
      Leads 1 0 body (items r d body s).rest) :
    Leads 0 0 ts (node r t ts s).rest := by
  by_cases hword : ∃ w, t.kind = .keyword (.node w)
  · obtain ⟨w, hkind⟩ := hword
    cases hopen : opening ts with
    | block text body =>
      have hbody := hitems ⟨w, text, t.line, [], []⟩ body (length_of_opening_block hopen)
      have hrest : (node r t ts s).rest = (items r ⟨w, text, t.line, [], []⟩ body s).rest := by
        show (node r t ts s).parts.2.1 = _
        rw [node_block hkind hopen, buildParts_tokens]
        rfl
      obtain ⟨name, o, rfl, hname, -, ho⟩ := block_of_opening hopen
      rw [hrest]
      refine .plain ?_ (.left ho hbody)
      rw [hname]
      exact TokenKind.isPlain_identifier
    | bare text rest =>
      rw [Step.rest_eq (node_bare hkind hopen)]
      obtain ⟨name, rfl, hname⟩ := bare_of_opening hopen
      refine .plain ?_ (skipNode_leads rest)
      rw [hname]
      exact TokenKind.isPlain_identifier
    | nameless =>
      rw [Step.rest_eq (node_nameless hkind hopen)]
      exact skipNode_leads ts
  · by_cases hname : t.kind = .identifier
    · rw [Step.rest_eq (node_unknown hname)]
      exact skipNode_leads ts
    · rw [Step.rest_eq (node_unexpected (fun w hw => hword ⟨w, hw⟩) hname)]
      exact skipNode_leads ts

/-- The items of a block lead through the brace that closes it, also where one of them is wrong. -/
theorem items_leads (d : Declaration β) (ts : List Token) (s : Site η) :
    Leads 1 0 ts (items r d ts s).rest := by
  cases hitem : item ts with
  | ended =>
    rw [Step.rest_eq (items_ended hitem)]
    obtain rfl := nil_of_item hitem
    exact .ended
  | close rest =>
    rw [Step.rest_eq (items_close hitem)]
    obtain ⟨c, rfl, hc⟩ := close_of_item hitem
    exact .right hc .here
  | property text rest =>
    have hrest := length_of_item_property hitem
    obtain ⟨key, colon, hts, hkey, -, hcolon⟩ := property_of_item hitem
    -- the key and the colon are no braces, and then comes the value
    suffices h : Leads 1 0 rest (items r d ts s).rest by
      rw [hts] at h ⊢
      refine .plain ?_ (.plain ?_ h)
      · rw [hkey]
        exact TokenKind.isPlain_identifier
      · rw [hcolon]
        exact TokenKind.isPlain_colon
    cases hv : propertyValue text rest with
    | error wrong =>
      rw [Step.rest_eq (items_malformed hitem hv)]
      exact skipBlock_leads 0 rest
    | ok read =>
      obtain ⟨v, body⟩ := read
      have hbody := length_of_propertyValue hv
      rw [Step.rest_congr (items_property hitem hv)]
      exact (propertyValue_leads hv).trans (items_leads _ body s)
  | child t rest =>
    have hrest := length_of_item_child hitem
    have hle := (node r t rest s).length_le
    have hplain := plain_of_item_child hitem
    have hnode : Leads 0 0 rest (node r t rest s).rest :=
      node_leads_of fun d body _ => items_leads d body s
    rw [Step.rest_congr (items_child hitem)]
    have hnext := items_leads { d with children := d.children ++ (node r t rest s).value.toList }
      (node r t rest s).rest (node r t rest s).site
    rw [child_of_item hitem]
    -- the child closes what it opens, and the block around it goes on after it
    exact .plain hplain ((hnode.inside 1).trans hnext)
  | stray t =>
    rw [Step.rest_eq (items_stray hitem)]
    exact skipBlock_leads 0 ts
termination_by ts.length

/-- A node leads to where it began, as far as open blocks go. -/
theorem node_leads (t : Token) (ts : List Token) (s : Site η) : Leads 0 0 ts (node r t ts s).rest :=
  node_leads_of fun d body _ => items_leads d body s

/-! ### Extents -/

/-- The tokens `used` are all that a node takes up, and `rest` is what follows it. -/
structure IsExtent (used rest : List Token) : Prop where
  /-- There is at least one token. -/
  progress : used ≠ []
  /-- No part of the way closes a block that the node did not open. -/
  never_below : ∀ part, part <+: used → ∃ depth, nesting 0 part = some depth
  /-- The node goes on to the end of the input, or closes all blocks that it opens. -/
  ends : rest = [] ∨ nesting 0 used = some 0
  /-- Blocks that are open before the node are open at every place of it. -/
  around : ∀ inner depth, nesting 0 inner = some depth →
    ∀ part, part <+: used → ∃ more, nesting 0 (inner ++ part) = some (depth + more)

theorem Leads.isExtent {t : Token} {ts rest : List Token} (ht : t.kind.IsPlain)
    (h : Leads 0 0 ts rest) : ∃ used, t :: ts = used ++ rest ∧ IsExtent used rest := by
  obtain ⟨used, left, rfl, hused, hend⟩ := h
  have hwhole : nesting 0 (t :: used) = some left := by rw [nesting_plain _ ht, hused]
  have hbelow : ∀ part, part <+: t :: used → ∃ depth, nesting 0 part = some depth :=
    fun part => nesting_of_prefix hwhole
  refine ⟨t :: used, rfl, List.cons_ne_nil t used, hbelow, ?_, ?_⟩
  · refine hend.imp_right fun hleft => ?_
    rw [hwhole, hleft]
  · intro inner depth hinner part hpart
    obtain ⟨more, hmore⟩ := hbelow part hpart
    refine ⟨more, ?_⟩
    rw [nesting_append, hinner, Option.bind_some]
    have hshifted := nesting_add depth hmore
    rwa [Nat.zero_add, Nat.add_comm more] at hshifted

/-- Reading a node makes progress and respects braces.  From a word or a name on it passes over at least
    one token and stops at the end of the input, or where all blocks that were opened on the way are
    closed again.  On the way it never closes a block around, so the brace that closes the block in
    which the node stands is left over, whatever is wrong with the node and at whatever depth. -/
theorem node_extent (r : Registry β η) {t : Token} (ts : List Token) (s : Site η)
    (ht : t.kind = .identifier ∨ ∃ k, t.kind = .keyword k) :
    ∃ used, t :: ts = used ++ (node r t ts s).rest ∧ IsExtent used (node r t ts s).rest := by
  have hplain : t.kind.IsPlain := by
    rcases ht with ht | ⟨k, ht⟩
    · rw [ht]
      exact TokenKind.isPlain_identifier
    · rw [ht]
      exact TokenKind.isPlain_keyword k
  exact (node_leads t ts s).isExtent hplain

/-- What follows the word `Sequence` when a brace stands in the place of a value.  The last brace is that
    of the block around. -/
def bracedValue : List Token :=
  [⟨.identifier, 1, "round"⟩, ⟨.leftBrace, 1, "\x7b"⟩, ⟨.identifier, 2, "speed"⟩, ⟨.colon, 2, ":"⟩,
    ⟨.leftBrace, 2, "\x7b"⟩, ⟨.rightBrace, 2, "\x7d"⟩, ⟨.rightBrace, 3, "\x7d"⟩,
    ⟨.rightBrace, 4, "\x7d"⟩]

/-- The sequence is not read, and only the brace of the block around is left over. -/
theorem bracedValue_extent :
    let word : Token := ⟨.keyword (.node (.inner .sequence)), 1, "Sequence"⟩
    let step := node (Registry.withBuiltins id) word bracedValue { shop := ⟨0, ()⟩ }
    (∃ k, word.kind = .keyword k) ∧ step.value = none ∧ step.rest = [⟨.rightBrace, 4, "\x7d"⟩] ∧
      ∃ used, word :: bracedValue = used ++ step.rest ∧ IsExtent used step.rest := by
  intro word step
  have hword : ∃ k, word.kind = .keyword k := ⟨_, rfl⟩
  have hparts : step.parts = (none, [⟨.rightBrace, 4, "\x7d"⟩],
      Site.report { shop := ⟨0, ()⟩ }
        { fault := .valueExpected "speed" .leftBrace, line := some 2 }) := by
    show (node _ word bracedValue _).parts = _
    unfold bracedValue
    rw [node_block rfl rfl, items_malformed rfl rfl]
    rfl
  exact ⟨hword, Step.value_eq hparts, Step.rest_eq hparts, node_extent _ _ _ (.inr hword)⟩

end BehaviorTree.Source
