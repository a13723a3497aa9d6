import BehaviorTree.Proofs.Source.Braces
import BehaviorTree.Proofs.Source.Grammar
import BehaviorTree.Proofs.Source.Report

namespace BehaviorTree.Source

/-!
# A wrong child costs only itself

A child with a wrong header is passed over together with its block, and everything beside it and
around it is read as if it were not there.

* `IsWrongChild` — a header that is not that of a node, before a block;
* `Inserted`, `InsertedFile` — tokens stand between two items of a block, at any depth;
* `InsertedFile.isFile` — without those tokens a file follows the grammar;
* `items_wrongChild` — where a wrong child stands, reading a block only reports it;
* `items_inserted` — with a wrong child inside, a block gives the same and one more report;
* `readTokens_inserted` — so does a whole file.
-/

/-! ### Wrong children -/

/-- A header that begins as a child does and is not that of a node.  It has no braces; it begins with
    a word, or with a name that is not the key of a property; and it is not the word of a node
    with a name alone. -/
structure IsWrongHeader (first : Token) (more : List Token) : Prop where
  begins : (∃ k, first.kind = .keyword k) ∨
    first.kind = .identifier ∧ ∀ t ∈ more.head?, t.kind ≠ .colon
  plain : ∀ t ∈ more, t.kind.IsPlain
  wrong : ¬ ((∃ w, first.kind = .keyword (.node w)) ∧
    ∃ name, more = [name] ∧ name.kind = .identifier)

/-- A wrong header that begins on this line, and a block in which every block is closed. -/
inductive IsWrongChild : Nat → List Token → Prop
  | mk {first o c : Token} {more body : List Token} :
      IsWrongHeader first more → o.kind = .leftBrace → Balanced body → c.kind = .rightBrace →
      IsWrongChild first.line (first :: (more ++ o :: (body ++ [c])))

/-- The tokens `more` stand between two items of the block `ts` or of one inside it, which gives the
    second list.  A boundary splits a block into the items before it and those after it. -/
inductive Inserted (more : List Token) : List Token → List Token → Prop
  | between {before after : List Token} {b b' : Block} :
      Derives before b → Derives after b' →
      Inserted more (before ++ after) (before ++ (more ++ after))
  | inside {word name o c : Token} {w : NodeWord} {before ts ts' after : List Token}
      {b b' : Block} :
      Derives before b → word.kind = .keyword (.node w) → name.kind = .identifier →
      o.kind = .leftBrace → Inserted more ts ts' → c.kind = .rightBrace → Derives after b' →
      Inserted more (before ++ word :: name :: o :: (ts ++ c :: after))
        (before ++ word :: name :: o :: (ts' ++ c :: after))

/-- The tokens `more` stand between two items of a node of the file `ts`. -/
inductive InsertedFile (more : List Token) : List Token → List Token → Prop
  | mk {before after ts ts' : List Token} {tree name o word root o' c' c : Token} {w : NodeWord} :
      (∀ t ∈ before, t.kind ≠ .keyword .tree) → tree.kind = .keyword .tree →
      name.kind = .identifier → o.kind = .leftBrace → word.kind = .keyword (.node w) →
      root.kind = .identifier → o'.kind = .leftBrace → Inserted more ts ts' →
      c'.kind = .rightBrace → c.kind = .rightBrace →
      InsertedFile more
        (before ++ tree :: name :: o :: word :: root :: o' :: (ts ++ c' :: c :: after))
        (before ++ tree :: name :: o :: word :: root :: o' :: (ts' ++ c' :: c :: after))

/-- The items before a boundary and those after it are the items of one block. -/
theorem Derives.append {ts us : List Token} {b b' : Block} (h : Derives ts b)
    (h' : Derives us b') : ∃ b'', Derives (ts ++ us) b'' := by
  induction h with
  | nil => exact ⟨b', h'⟩
  | property hkey hcolon hv _ ih =>
    obtain ⟨b'', hb⟩ := ih
    exact ⟨_, .property hkey hcolon hv hb⟩
  | child hword hname ho hbody hc _ _ ih =>
    obtain ⟨b'', hb⟩ := ih
    rw [List.cons_append, List.cons_append, List.cons_append, List.append_assoc,
      List.cons_append]
    exact ⟨_, .child hword hname ho hbody hc hb⟩

/-- Without the tokens that were inserted, a block derives its items. -/
theorem Inserted.derives {more ts ts' : List Token} (h : Inserted more ts ts') :
    ∃ b, Derives ts b := by
  induction h with
  | between hbefore hafter => exact hbefore.append hafter
  | inside hbefore hword hname ho _ hc hafter ih =>
    obtain ⟨b, hb⟩ := ih
    exact hbefore.append (.child hword hname ho hb hc hafter)

/-- Without the tokens that were inserted, a file follows the grammar. -/
theorem InsertedFile.isFile {more ts ts' : List Token} (h : InsertedFile more ts ts') :
    ∃ tree b, IsFile ts tree b := by
  cases h with
  | @mk before after ts ts' tree name o word root o' c' c w hbefore htree hname ho hword hroot ho'
      hinserted hc' hc =>
    obtain ⟨b, hb⟩ := hinserted.derives
    have hchild := Derives.child hword hroot ho' hb hc' .nil
    refine ⟨name.text, .child w word.line root.text b .nil, ?_⟩
    have hfile := @IsFile.mk before after _ _ _ _ _ _ _ _ _ hbefore htree hname ho hchild hc
    simpa only [List.cons_append, List.append_assoc, List.nil_append] using hfile

/-! ### What a wrong child begins with -/

section

variable {t : Token} {ts : List Token}

theorem item_name (hname : t.kind = .identifier) (hcolon : ∀ u ∈ ts.head?, u.kind ≠ .colon) :
    item (t :: ts) = .child t ts := by
  obtain ⟨kind, line, text⟩ := t
  obtain rfl : kind = _ := hname
  cases ts with
  | nil => rfl
  | cons u us =>
    have hu : u.kind ≠ .colon := hcolon u rfl
    obtain ⟨kind, line', text'⟩ := u
    cases kind with
    | colon => exact absurd rfl hu
    | _ => rfl

theorem opening_bare (hname : t.kind = .identifier)
    (hbrace : ∀ u ∈ ts.head?, u.kind ≠ .leftBrace) : opening (t :: ts) = .bare t.text ts := by
  obtain ⟨kind, line, text⟩ := t
  obtain rfl : kind = _ := hname
  cases ts with
  | nil => rfl
  | cons u us =>
    have hu : u.kind ≠ .leftBrace := hbrace u rfl
    obtain ⟨kind, line', text'⟩ := u
    cases kind with
    | leftBrace => exact absurd rfl hu
    | _ => rfl

theorem opening_nameless (hname : t.kind ≠ .identifier) : opening (t :: ts) = .nameless := by
  obtain ⟨kind, line, text⟩ := t
  cases kind with
  | identifier => exact absurd rfl hname
  | _ => rfl

end

section

variable {first o c : Token} {more body : List Token}

theorem IsWrongHeader.item_eq (h : IsWrongHeader first more) (ho : o.kind = .leftBrace)
    (ts : List Token) : item (first :: (more ++ o :: ts)) = .child first (more ++ o :: ts) := by
  rcases h.begins with ⟨k, hk⟩ | ⟨hname, hcolon⟩
  · exact item_child hk _
  · apply item_name hname
    cases more with
    | nil =>
      intro u hu
      obtain rfl : o = u := by simpa using hu
      rw [ho]
      exact nofun
    | cons t ts => exact hcolon

variable {β η : Type} [Behavior β η] {r : Registry β η}

/-- A wrong header is reported, and the block after it is skipped. -/
theorem node_wrongHeader (r : Registry β η) (h : IsWrongHeader first more)
    (ho : o.kind = .leftBrace) (hbody : Balanced body) (hc : c.kind = .rightBrace) :
    ∃ d : Diagnostic, d.line = some first.line ∧ ∀ (rest : List Token) (s : Site η),
      (node r first (more ++ o :: (body ++ c :: rest)) s).parts = (none, rest, s.report d) := by
  have hskip := skipNode_of_block h.plain ho hbody hc
  -- with the word of a node something after it is wrong, else the word itself
  by_cases hword : ∃ w, first.kind = .keyword (.node w)
  · obtain ⟨w, hkind⟩ := hword
    cases more with
    | nil =>
      have hbrace : o.kind ≠ .identifier := by rw [ho]; exact nofun
      refine ⟨{ fault := .nameMissing w, line := some first.line }, rfl, ?_⟩
      intro rest s
      have hrest := hskip rest
      rw [List.nil_append] at hrest ⊢
      rw [node_nameless hkind (opening_nameless hbrace), hrest]
    | cons name more =>
      by_cases hname : name.kind = .identifier
      · -- a name alone would be right, so something stands between it and the block
        refine ⟨{ fault := .braceMissing, line := some first.line, node := some name.text }, rfl,
          ?_⟩
        intro rest s
        have hbrace : ∀ u ∈ (more ++ o :: (body ++ c :: rest)).head?, u.kind ≠ .leftBrace := by
          cases more with
          | nil => exact absurd ⟨⟨w, hkind⟩, name, rfl, hname⟩ h.wrong
          | cons t ts =>
            intro u hu
            obtain rfl : t = u := by simpa using hu
            exact (h.plain t (by simp)).1
        rw [List.cons_append, node_bare hkind (opening_bare hname hbrace),
          skipNode_of_block (fun t ht => h.plain t (List.mem_cons_of_mem _ ht)) ho hbody hc]
      · refine ⟨{ fault := .nameMissing w, line := some first.line }, rfl, ?_⟩
        intro rest s
        rw [List.cons_append, node_nameless hkind (opening_nameless hname), ← List.cons_append,
          hskip]
  · by_cases hname : first.kind = .identifier
    · refine ⟨{ fault := .wordUnknown first.text, line := some first.line }, rfl, ?_⟩
      intro rest s
      rw [node_unknown hname, hskip]
    · refine ⟨{ fault := .wordExpected first.kind, line := some first.line }, rfl, ?_⟩
      intro rest s
      rw [node_unexpected (fun w hw => hword ⟨w, hw⟩) hname, hskip]

/-- Where a wrong child stands in a block, it is reported, and reading goes on after it. -/
theorem items_wrongChild (r : Registry β η) {line : Nat} {child : List Token}
    (h : IsWrongChild line child) :
    ∃ report : Diagnostic, report.line = some line ∧
      ∀ (d : Declaration β) (rest : List Token) (s : Site η),
        (items r d (child ++ rest) s).parts = (items r d rest (s.report report)).parts := by
  cases h with
  | @mk first o c more body hheader ho hbody hc =>
    obtain ⟨report, hline, hnode⟩ := node_wrongHeader r hheader ho hbody hc
    refine ⟨report, hline, ?_⟩
    intro d rest s
    have hread := hnode rest s
    rw [List.cons_append, List.append_assoc, List.cons_append, List.append_assoc,
      List.singleton_append, items_child_of_parts (hheader.item_eq ho _) hread,
      Option.toList_none, List.append_nil]

end

/-! ### One more report -/

variable {β η : Type}

/-- The second reading differs from the first in one more report among the others. -/
def OneMore {α : Type} (report : Diagnostic) (p p' : α × List Token × Site η) : Prop :=
  ∃ before q, p = partsAfter before q ∧ p' = partsAfter (before.report report) q

variable [Behavior β η] {r : Registry β η} {report : Diagnostic}

theorem OneMore.buildParts {p p' : Option (Declaration β) × List Token × Site η}
    (h : OneMore report p p') : OneMore report (buildParts r p) (buildParts r p') := by
  obtain ⟨before, q, rfl, rfl⟩ := h
  exact ⟨before, Source.buildParts r q, buildParts_after before q, buildParts_after _ q⟩

/-- A report is still the only difference after the items of a block. -/
theorem oneMore_items (d : Declaration β) (ts : List Token) (s : Site η) :
    OneMore report (items r d ts s).parts (items r d ts (s.report report)).parts := by
  refine ⟨s, (items r d ts { shop := s.shop }).parts, ?_, ?_⟩
  · rw [← items_after, ← s.eq_after]
  · rw [← items_after]
    exact congrArg (fun s => (items r d ts s).parts) (s.report report).eq_after

/-- If a child differs in one report, so does a block that goes on with it. -/
theorem OneMore.items_child {d : Declaration β} {t : Token} {ts ts' rest rest' : List Token}
    {s : Site η} (hitem : item ts = .child t rest) (hitem' : item ts' = .child t rest')
    (h : OneMore report (node r t rest s).parts (node r t rest' s).parts) :
    OneMore report (items r d ts s).parts (items r d ts' s).parts := by
  obtain ⟨before, ⟨child, after, site⟩, hnode, hnode'⟩ := h
  rw [items_child_of_parts hitem hnode, items_child_of_parts hitem' hnode']
  exact ⟨before, _, items_after before _ after site, items_after _ _ after site⟩

/-- If the items of its block differ in one report, so does a node. -/
theorem OneMore.node_block {t : Token} {w : NodeWord} {name : String}
    {ts ts' body body' : List Token} {s : Site η} (hword : t.kind = .keyword (.node w))
    (hopen : opening ts = .block name body) (hopen' : opening ts' = .block name body')
    (h : OneMore report (items r ⟨w, name, t.line, [], []⟩ body s).parts
      (items r ⟨w, name, t.line, [], []⟩ body' s).parts) :
    OneMore report (node r t ts s).parts (node r t ts' s).parts := by
  rw [Source.node_block hword hopen, Source.node_block hword hopen']
  exact h.buildParts

/-! ### Blocks -/

/-- What follows some items is read from the declaration and the site after them. -/
theorem items_prefix {ts : List Token} {b : Block} (h : Derives ts b) (d : Declaration β)
    (s : Site η) :
    ∃ d' s', ∀ rest, (items r d (ts ++ rest) s).parts = (items r d' rest s').parts := by
  induction h generalizing d s with
  | nil => exact ⟨d, s, fun _ => rfl⟩
  | @property key colon t v ts rest hkey hcolon hv _ ih =>
    obtain ⟨d', s', hread⟩ := ih { d with properties := d.properties ++ [(key.text, v)] } s
    refine ⟨d', s', ?_⟩
    intro rest'
    rw [List.cons_append, List.cons_append, List.cons_append,
      items_property (item_property hkey hcolon _) (propertyValue_of_isValue hv _ _), hread]
  | @child word name o c w ts us body rest hword hname ho _ hc _ ihbody ihrest =>
    -- the block of the child is read to its end, and the child is built from it or left out
    obtain ⟨own, site, hown⟩ := ihbody ⟨w, name.text, word.line, [], []⟩ s
    obtain ⟨d', s', hread⟩ := ihrest
      { d with children := d.children ++ (own.build r site).1.toList } (own.build r site).2
    refine ⟨d', s', ?_⟩
    intro rest'
    have hnode : (node r word (name :: o :: (ts ++ c :: (us ++ rest'))) s).parts =
        ((own.build r site).1, us ++ rest', (own.build r site).2) := by
      rw [node_block hword (opening_block hname ho _), hown, items_close (item_close hc _)]
      rfl
    rw [List.cons_append, List.cons_append, List.cons_append, List.append_assoc, List.cons_append,
      items_child_of_parts (item_child hword _) hnode, hread]

/-- With tokens inside that are only reported, a block gives the same and one more report, whatever
    follows it. -/
theorem items_inserted {child ts ts' : List Token}
    (hchild : ∀ (d : Declaration β) (rest : List Token) (s : Site η),
      (items r d (child ++ rest) s).parts = (items r d rest (s.report report)).parts)
    (h : Inserted child ts ts') (d : Declaration β) (rest : List Token) (s : Site η) :
    OneMore report (items r d (ts ++ rest) s).parts (items r d (ts' ++ rest) s).parts := by
  induction h generalizing d rest s with
  | @between before after b b' hbefore _ =>
    obtain ⟨d', s', hread⟩ := items_prefix hbefore d s
    -- at the boundary the two readings are in one place, and one of them reports
    rw [List.append_assoc, List.append_assoc, List.append_assoc, hread, hread, hchild]
    exact oneMore_items d' (after ++ rest) s'
  | @inside word name o c w before ts ts' after b b' hbefore hword hname ho _ hc _ ih =>
    obtain ⟨d', s', hread⟩ := items_prefix hbefore d s
    have hsplit : ∀ us, (before ++ word :: name :: o :: (us ++ c :: after)) ++ rest =
        before ++ word :: name :: o :: (us ++ c :: (after ++ rest)) := by
      intro us
      simp only [List.append_assoc, List.cons_append]
    -- the child around is built on both sides, and after it the tokens are the same
    rw [hsplit, hsplit, hread, hread]
    apply OneMore.items_child (item_child hword _) (item_child hword _)
    apply OneMore.node_block hword (opening_block hname ho _) (opening_block hname ho _)
    exact ih _ (c :: (after ++ rest)) s'

/-! ### Files -/

/-- The second reading of a file gives what the first one gives, and one more report among the
    others. -/
structure Reading.OnlyAdds (report : Diagnostic) (p p' : Reading β η) : Prop where
  result : p'.result = p.result
  shop : p'.shop = p.shop
  diagnostics : ∃ before after, p.diagnostics = before ++ after ∧
    p'.diagnostics = before ++ report :: after

omit [Behavior β η] in
theorem fail_onlyAdds (failure : Failure) (before s : Site η) :
    Reading.OnlyAdds (β := β) report (fail failure (s.after before))
      (fail failure (s.after (before.report report))) := by
  refine ⟨rfl, rfl, before.diagnostics, s.diagnostics ++ [failure.diagnostic], ?_, ?_⟩
  · exact List.append_assoc _ _ _
  · show (before.diagnostics ++ [report]) ++ s.diagnostics ++ [failure.diagnostic] = _
    simp only [List.append_assoc, List.cons_append, List.nil_append]

theorem finish_onlyAdds (tree : String) (root : Node β) (before s : Site η) :
    Reading.OnlyAdds report (finish tree root (s.after before))
      (finish tree root (s.after (before.report report))) := by
  refine ⟨rfl, rfl, before.diagnostics, s.diagnostics, rfl, ?_⟩
  show (before.diagnostics ++ [report]) ++ s.diagnostics = _
  simp only [List.append_assoc, List.singleton_append]

/-- If its root differs in one report, so does a tree. -/
theorem treeBody_onlyAdds (line : Nat) (tree : String) {t : Token} {ts ts' : List Token}
    {s : Site η} (ht : t.kind ≠ .rightBrace)
    (h : OneMore report (node r t ts s).parts (node r t ts' s).parts) :
    Reading.OnlyAdds report (treeBody r line tree s (t :: ts))
      (treeBody r line tree s (t :: ts')) := by
  obtain ⟨before, ⟨root, rest, site⟩, hnode, hnode'⟩ := h
  cases root with
  | none =>
    rw [treeBody_none ht hnode, treeBody_none ht hnode']
    exact fail_onlyAdds _ before site
  | some root =>
    cases rest with
    | nil =>
      rw [treeBody_open ht hnode, treeBody_open ht hnode']
      exact fail_onlyAdds _ before site
    | cons c after =>
      rw [treeBody_some ht hnode, treeBody_some ht hnode']
      by_cases hc : c.kind = .rightBrace
      · rw [if_pos hc, if_pos hc]
        exact finish_onlyAdds tree root before site
      · rw [if_neg hc, if_neg hc]
        exact fail_onlyAdds _ before site

/-- A wrong child costs only itself.  It has a report, an error that tells its line, and nothing else
    comes of it: with the child between two items of any node, a file that follows the grammar gives
    the same tree or the same failure, and the same reports in the same order with this one among
    them.  Leaves of the file may be unregistered, and children may be refused. -/
theorem readTokens_inserted (r : Registry β η) {line : Nat} {child : List Token}
    (hchild : IsWrongChild line child) :
    ∃ report : Diagnostic, report.record.level = .error ∧ report.line = some line ∧
      ∀ {ts ts' : List Token} (shop : Workshop η), InsertedFile child ts ts' →
        Reading.OnlyAdds report (readTokens r ts shop) (readTokens r ts' shop) := by
  obtain ⟨report, hline, hreport⟩ := items_wrongChild r hchild
  refine ⟨report, rfl, hline, ?_⟩
  intro ts ts' shop h
  cases h with
  | @mk before after ts ts' tree name o word root o' c' c w hbefore htree hname ho hword hroot ho'
      hinserted hc' hc =>
    have hitems := items_inserted hreport hinserted ⟨w, root.text, word.line, [], []⟩
      (c' :: c :: after) { shop }
    have hnode := OneMore.node_block hword (opening_block hroot ho' _) (opening_block hroot ho' _)
      hitems
    have hne : word.kind ≠ .rightBrace := by rw [hword]; exact nofun
    have hbody := treeBody_onlyAdds tree.line name.text hne hnode
    simpa only [readTokens, dropWhile_tree hbefore htree, treeAfter, opening_block hname ho]
      using hbody

/-- A sequence of one leaf that no registry has to know, with more tokens before the leaf. -/
def unknownLeaf (more : List Token) : List Token :=
  [⟨.keyword .tree, 1, "tree"⟩, ⟨.identifier, 1, "Patrol"⟩, ⟨.leftBrace, 1, "\x7b"⟩,
    ⟨.keyword (.node (.inner .sequence)), 2, "Sequence"⟩, ⟨.identifier, 2, "round"⟩,
    ⟨.leftBrace, 2, "\x7b"⟩] ++
  (more ++
    [⟨.keyword (.node (.leaf .action)), 4, "Action"⟩, ⟨.identifier, 4, "Walk"⟩,
      ⟨.leftBrace, 4, "\x7b"⟩, ⟨.rightBrace, 4, "\x7d"⟩]) ++
  [⟨.rightBrace, 5, "\x7d"⟩, ⟨.rightBrace, 6, "\x7d"⟩]

/-- A child with a misspelled word, and with a block in its block. -/
def misspelledChild : List Token :=
  [⟨.identifier, 3, "Sequense"⟩, ⟨.identifier, 3, "inner"⟩, ⟨.leftBrace, 3, "\x7b"⟩,
    ⟨.keyword .tree, 3, "tree"⟩, ⟨.leftBrace, 3, "\x7b"⟩, ⟨.rightBrace, 3, "\x7d"⟩,
    ⟨.rightBrace, 3, "\x7d"⟩]

/-- The misspelled child is reported, and so is the leaf beside it, with it as without it. -/
theorem misspelledChild_skipped :
    IsWrongChild 3 misspelledChild ∧
      InsertedFile misspelledChild (unknownLeaf []) (unknownLeaf misspelledChild) ∧
      ∃ report : Diagnostic, report.line = some 3 ∧
        Reading.OnlyAdds report
          (readTokens (Registry.withBuiltins id) (unknownLeaf []) ⟨0, ()⟩)
          (readTokens (Registry.withBuiltins id) (unknownLeaf misspelledChild) ⟨0, ()⟩) := by
  have hheader : IsWrongHeader ⟨.identifier, 3, "Sequense"⟩ [⟨.identifier, 3, "inner"⟩] := by
    refine ⟨.inr ⟨rfl, by decide⟩, ?_, ?_⟩
    · intro t ht
      obtain rfl := List.mem_singleton.1 ht
      exact ⟨nofun, nofun⟩
    · rintro ⟨⟨w, hw⟩, -⟩
      exact absurd hw nofun
  have hchild : IsWrongChild 3 misspelledChild :=
    @IsWrongChild.mk _ ⟨.leftBrace, 3, "\x7b"⟩ ⟨.rightBrace, 3, "\x7d"⟩ _
      [⟨.keyword .tree, 3, "tree"⟩, ⟨.leftBrace, 3, "\x7b"⟩, ⟨.rightBrace, 3, "\x7d"⟩]
      hheader rfl rfl rfl
  have hleaf := @Derives.child ⟨.keyword (.node (.leaf .action)), 4, "Action"⟩
    ⟨.identifier, 4, "Walk"⟩ ⟨.leftBrace, 4, "\x7b"⟩ ⟨.rightBrace, 4, "\x7d"⟩ _ [] [] _ _
    rfl rfl rfl .nil rfl .nil
  have hinserted : InsertedFile misspelledChild (unknownLeaf []) (unknownLeaf misspelledChild) :=
    @InsertedFile.mk _ [] [] _ _ ⟨.keyword .tree, 1, "tree"⟩ ⟨.identifier, 1, "Patrol"⟩
      ⟨.leftBrace, 1, "\x7b"⟩ ⟨.keyword (.node (.inner .sequence)), 2, "Sequence"⟩
      ⟨.identifier, 2, "round"⟩ ⟨.leftBrace, 2, "\x7b"⟩ ⟨.rightBrace, 5, "\x7d"⟩
      ⟨.rightBrace, 6, "\x7d"⟩ _ nofun rfl rfl rfl rfl rfl rfl (.between .nil hleaf) rfl rfl
  obtain ⟨report, -, hline, hread⟩ := readTokens_inserted (Registry.withBuiltins id) hchild
  exact ⟨hchild, hinserted, report, hline, hread ⟨0, ()⟩ hinserted⟩

end BehaviorTree.Source
