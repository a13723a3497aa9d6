import BehaviorTree.Proofs.Source.Denotation

namespace BehaviorTree.Source

/-!
# Reading accepts exactly the grammar

* `items_of_denotes`, `node_of_denotes` — what derives and denotes is read without a report, up to the
  brace that closes it;
* `items_sound`, `node_sound` — what is read without a report derives and denotes;
* `readTokens_accepts_iff` — a token list is read without a report exactly when it holds a tree that
  denotes, and then the tree has the snapshot that it denotes.
-/

variable {β η : Type} [Behavior β η] {r : Registry β η}

/-! ### What derives is read -/

/-- A node that denotes is built once its block was read to the end. -/
theorem node_of_body {word name o : Token} {w : NodeWord} {ps : List (String × PropertyValue)}
    {kids : List (Node β)} {shop shop' : Workshop η} {snapshot : Snapshot}
    (hword : word.kind = .keyword (.node w)) (hname : name.kind = .identifier)
    (ho : o.kind = .leftBrace)
    (h : DenotesNode r w name.text ps (Snapshot.ofNodes kids) shop snapshot shop')
    (ds : List Diagnostic) (errors : Nat) :
    ∃ m, Snapshot.ofNode m = snapshot ∧
      ∀ {ts rest : List Token} {s : Site η},
        (items r ⟨w, name.text, word.line, [], []⟩ ts s).parts =
            (some ⟨w, name.text, word.line, ps, kids⟩, rest, ⟨shop, ds, errors⟩) →
          (node r word (name :: o :: ts) s).parts = (some m, rest, ⟨shop', ds, errors⟩) := by
  obtain ⟨m, hbuild, hsnapshot⟩ :=
    build_of_denotes (d := ⟨w, name.text, word.line, ps, kids⟩) h ds errors
  refine ⟨m, hsnapshot, ?_⟩
  intro ts rest s hbody
  rw [node_block hword (opening_block hname ho ts), hbody]
  simp only [buildParts, hbuild]

/-- The items of a block that derives and denotes are read up to its closing brace. -/
theorem items_of_denotes {ts : List Token} {b : Block} (hb : Derives ts b) {shop shop' : Workshop η}
    {ss : List Snapshot} (h : Denotes r b shop ss shop') (ds : List Diagnostic) (errors : Nat) :
    ∃ ns, Snapshot.ofNodes ns = ss ∧
      ∀ (d : Declaration β) {c : Token} (rest : List Token), c.kind = .rightBrace →
        (items r d (ts ++ c :: rest) ⟨shop, ds, errors⟩).parts =
          (some { d with
              properties := d.properties ++ b.properties
              children := d.children ++ ns },
            rest, ⟨shop', ds, errors⟩) := by
  induction hb generalizing shop shop' ss with
  | nil =>
    cases h
    refine ⟨[], by simp [Snapshot.ofNodes], ?_⟩
    intro d c rest hc
    rw [List.nil_append, items_close (item_close hc rest)]
    simp only [Block.properties, List.append_nil]
  | @property key colon t v ts rest hkey hcolon hv _ ih =>
    cases h with
    | property h =>
      obtain ⟨ns, hns, hread⟩ := ih h
      refine ⟨ns, hns, ?_⟩
      intro d c rest' hc
      rw [List.cons_append, List.cons_append, List.cons_append,
        items_property (item_property hkey hcolon _) (propertyValue_of_isValue hv _ _),
        hread _ rest' hc]
      simp only [Block.properties, List.append_assoc, List.singleton_append]
  | @child word name o e w ts us body rest hword hname ho _ he _ ihbody ihrest =>
    cases h with
    | child hkids hchild hsiblings =>
      obtain ⟨kids, rfl, hbody⟩ := ihbody hkids
      obtain ⟨ns, rfl, hread⟩ := ihrest hsiblings
      obtain ⟨m, hsnapshot, hnode⟩ := node_of_body hword hname ho hchild ds errors
      refine ⟨m :: ns, by rw [Snapshot.ofNodes, hsnapshot], ?_⟩
      intro d c rest' hc
      -- the child's own block is read first, and then what stands beside it
      have hown := hbody ⟨w, name.text, word.line, [], []⟩ (us ++ c :: rest') he
      simp only [List.nil_append] at hown
      have hchild := hnode hown
      rw [List.cons_append, List.cons_append, List.cons_append, List.append_assoc,
        List.cons_append, items_child_of_parts (item_child hword _) hchild, hread _ rest' hc]
      simp only [Block.properties, Option.toList_some, List.append_assoc, List.singleton_append]

/-- A node that derives and denotes is read. -/
theorem node_of_denotes {t : Token} {ts us rest : List Token} {w : NodeWord} {line : Nat}
    {name : String} {body : Block} {shop shop' : Workshop η} {snapshot : Snapshot}
    (hb : Derives us (.child w line name body .nil))
    (h : Denotes r (.child w line name body .nil) shop [snapshot] shop')
    (hts : t :: ts = us ++ rest) (ds : List Diagnostic) (errors : Nat) :
    ∃ m, Snapshot.ofNode m = snapshot ∧
      (node r t ts ⟨shop, ds, errors⟩).parts = (some m, rest, ⟨shop', ds, errors⟩) := by
  cases hb with
  | child hword hname ho hbody he hrest =>
    cases hrest
    cases h with
    | child hkids hchild hsiblings =>
      cases hsiblings
      obtain ⟨kids, rfl, hread⟩ := items_of_denotes hbody hkids ds errors
      obtain ⟨m, hsnapshot, hnode⟩ := node_of_body hword hname ho hchild ds errors
      simp only [List.cons_append, List.append_assoc, List.cons.injEq, List.nil_append] at hts
      obtain ⟨rfl, rfl⟩ := hts
      refine ⟨m, hsnapshot, hnode ?_⟩
      rw [hread _ rest he]
      simp only [List.nil_append]

/-! ### What is read derives -/

/-- The numbers among the tokens are numerals, as the tokens of every text are. -/
def Numerals (ts : List Token) : Prop :=
  ∀ t ∈ ts, t.kind = .number → Decimal.IsNumeral t.text.toList

theorem Numerals.of_suffix {ts us : List Token} (h : Numerals ts) (hsuffix : us <:+ ts) :
    Numerals us := fun t ht => h t (hsuffix.subset ht)

theorem isValue_of_propertyValue {key : String} {ts rest : List Token} {v : PropertyValue}
    (hform : Numerals ts)
    (h : propertyValue key ts = .ok (v, rest)) : ∃ t, ts = t :: rest ∧ IsValue t v := by
  cases ts with
  | nil => exact absurd h nofun
  | cons t ts =>
    unfold propertyValue at h
    dsimp only at h
    split at h
    · next hkind =>
      obtain ⟨rfl, rfl⟩ := Prod.mk.inj (Except.ok.inj h)
      exact ⟨t, rfl, .text hkind⟩
    · next hkind =>
      obtain ⟨rfl, rfl⟩ := Prod.mk.inj (Except.ok.inj h)
      exact ⟨t, rfl, .name hkind⟩
    · next k hkind =>
      obtain ⟨rfl, rfl⟩ := Prod.mk.inj (Except.ok.inj h)
      exact ⟨t, rfl, .word hkind⟩
    · next hkind =>
      split at h
      · next x hx =>
        obtain ⟨rfl, rfl⟩ := Prod.mk.inj (Except.ok.inj h)
        have hnumeral := hform t List.mem_cons_self hkind
        have hdigit := (Decimal.isSome_readFloat?_iff hnumeral).1 (by rw [hx]; rfl)
        exact ⟨t, rfl, .number hkind hdigit hx⟩
      · exact absurd h nofun
    · exact absurd h nofun

/-- A child before the other items of a block. -/
theorem Derives.cons {us ts : List Token} {w : NodeWord} {line : Nat} {name : String}
    {body rest : Block} (h : Derives us (.child w line name body .nil)) (hrest : Derives ts rest) :
    Derives (us ++ ts) (.child w line name body rest) := by
  cases h with
  | child hword hname ho hbody hc hnil =>
    cases hnil
    rw [List.cons_append, List.cons_append, List.cons_append, List.append_assoc,
      List.singleton_append]
    exact .child hword hname ho hbody hc hrest

theorem Denotes.cons {w : NodeWord} {line : Nat} {name : String} {body rest : Block}
    {shop shop₁ shop₂ : Workshop η} {snapshot : Snapshot} {siblings : List Snapshot}
    (h : Denotes r (.child w line name body .nil) shop [snapshot] shop₁)
    (hrest : Denotes r rest shop₁ siblings shop₂) :
    Denotes r (.child w line name body rest) shop (snapshot :: siblings) shop₂ := by
  cases h with
  | child hkids hnode hnil =>
    cases hnil
    exact .child hkids hnode hrest

/-- The items of some tokens derive and denote up to a closing brace. -/
def Sound (r : Registry β η) (ts : List Token) (shop : Workshop η) : Prop :=
  ∃ us c rest b ss shop', ts = us ++ c :: rest ∧ c.kind = .rightBrace ∧ Derives us b ∧
    Denotes r b shop ss shop'

/-- The node of some tokens derives and denotes. -/
def NodeSound (r : Registry β η) (t : Token) (ts : List Token) (shop : Workshop η) : Prop :=
  ∃ us rest w name body snapshot shop', t :: ts = us ++ rest ∧
    Derives us (.child w t.line name body .nil) ∧
    Denotes r (.child w t.line name body .nil) shop [snapshot] shop'

/-- The recursion from a node into its block. -/
theorem node_sound_of {t : Token} {ts : List Token} {shop : Workshop η} {ds : List Diagnostic}
    {errors : Nat}
    (hitems : ∀ (d : Declaration β) (body : List Token), body.length < ts.length → body <:+ ts →
      (items r d body ⟨shop, ds, errors⟩).site.diagnostics = ds → Sound r body shop)
    (h : (node r t ts ⟨shop, ds, errors⟩).site.diagnostics = ds) : NodeSound r t ts shop := by
  by_cases hword : ∃ w, t.kind = .keyword (.node w)
  · obtain ⟨w, hkind⟩ := hword
    cases hopen : opening ts with
    | block text body =>
      have hlt := length_of_opening_block hopen
      have hparts := node_block (r := r) (s := ⟨shop, ds, errors⟩) hkind hopen
      obtain ⟨name, o, rfl, hname, rfl, ho⟩ := block_of_opening hopen
      have hbuilt : (buildParts r
          (items r ⟨w, name.text, t.line, [], []⟩ body ⟨shop, ds, errors⟩).parts).2.2.diagnostics = ds := by
        rw [← hparts]
        exact h
      -- neither the block nor the building after it reported anything
      have hprefix := buildParts_reports (r := r)
        (items r ⟨w, name.text, t.line, [], []⟩ body ⟨shop, ds, errors⟩).parts
      have hbody := eq_of_prefix (items_reports ⟨w, name.text, t.line, [], []⟩ body ⟨shop, ds, errors⟩)
        hprefix hbuilt
      obtain ⟨us, c, rest, b, ss, shop', rfl, hc, hb, hden⟩ :=
        hitems _ body hlt ⟨[name, o], rfl⟩ hbody
      -- what derives and denotes is read, so the children that were built are known
      obtain ⟨kids, rfl, hread⟩ := items_of_denotes hb hden ds errors
      rw [hread _ rest hc] at hbuilt
      obtain ⟨snapshot, shop'', hnode⟩ := denotes_of_build hbuilt
      exact ⟨t :: name :: o :: (us ++ [c]), rest, w, name.text, b, snapshot, shop'', by simp,
        .child hkind hname ho hb hc .nil, .child hden hnode .nil⟩
    | bare name rest =>
      rw [Step.site_eq (node_bare hkind hopen)] at h
      exact absurd h (Site.report_ne _ _)
    | nameless =>
      rw [Step.site_eq (node_nameless hkind hopen)] at h
      exact absurd h (Site.report_ne _ _)
  · have hword' : ∀ w, t.kind ≠ .keyword (.node w) := fun w h => hword ⟨w, h⟩
    by_cases hname : t.kind = .identifier
    · rw [Step.site_eq (node_unknown hname)] at h
      exact absurd h (Site.report_ne _ _)
    · rw [Step.site_eq (node_unexpected hword' hname)] at h
      exact absurd h (Site.report_ne _ _)

/-- Items that are read without a report derive and denote. -/
theorem items_sound {d : Declaration β} {ts : List Token} {shop : Workshop η}
    {ds : List Diagnostic} {errors : Nat} (hform : Numerals ts)
    (h : (items r d ts ⟨shop, ds, errors⟩).site.diagnostics = ds) : Sound r ts shop := by
  cases hitem : item ts with
  | ended =>
    rw [Step.site_eq (items_ended hitem)] at h
    exact absurd h (Site.report_ne _ _)
  | close rest =>
    obtain ⟨c, rfl, hc⟩ := close_of_item hitem
    exact ⟨[], c, rest, .nil, [], shop, rfl, hc, .nil, .nil⟩
  | property text rest =>
    have hrest := length_of_item_property hitem
    obtain ⟨key, colon, rfl, hkey, rfl, hcolon⟩ := property_of_item hitem
    cases hv : propertyValue key.text rest with
    | error wrong =>
      rw [Step.site_eq (items_malformed hitem hv)] at h
      exact absurd h (Site.report_ne _ _)
    | ok read =>
      obtain ⟨v, body⟩ := read
      have hform' := hform.of_suffix ⟨[key, colon], rfl⟩
      obtain ⟨t, rfl, hvalue⟩ := isValue_of_propertyValue hform' hv
      rw [Step.site_congr (items_property hitem hv)] at h
      obtain ⟨us, c, after, b, ss, shop', rfl, hc, hb, hden⟩ :=
        items_sound (hform'.of_suffix ⟨[t], rfl⟩) h
      exact ⟨key :: colon :: t :: us, c, after, .property key.text v b, ss, shop', rfl, hc,
        .property hkey hcolon hvalue hb, .property hden⟩
  | child t rest =>
    have hrest := length_of_item_child hitem
    have hle := (node r t rest ⟨shop, ds, errors⟩).length_le
    have hts := child_of_item hitem
    rw [Step.site_congr (items_child hitem)] at h
    -- the child was quiet, for a report of it would still be there at the end
    have hnode := eq_of_prefix (node_reports t rest ⟨shop, ds, errors⟩) (items_reports _ _ _) h
    have hform' := hform.of_suffix ⟨[t], hts.symm⟩
    obtain ⟨us, after, w, name, body, snapshot, shop₁, hsplit, hb, hden⟩ :=
      node_sound_of (fun d' body hlt hsuffix => items_sound (hform'.of_suffix hsuffix)) hnode
    -- what follows the child is shorter, which ends the recursion
    obtain ⟨m, -, hread⟩ := node_of_denotes hb hden hsplit ds errors
    have hlt : after.length < ts.length := by
      rw [Step.rest_eq hread] at hle
      omega
    rw [Step.rest_eq hread, Step.site_eq hread] at h
    have hform'' := hform.of_suffix ⟨us, hsplit.symm.trans hts.symm⟩
    obtain ⟨vs, c, after', b, ss, shop₂, hafter, hc, hb', hden'⟩ := items_sound hform'' h
    refine ⟨us ++ vs, c, after', .child w t.line name body b, snapshot :: ss, shop₂, ?_, hc,
      hb.cons hb', hden.cons hden'⟩
    rw [hts, hsplit, hafter, List.append_assoc]
  | stray t =>
    rw [Step.site_eq (items_stray hitem)] at h
    exact absurd h (Site.report_ne _ _)
termination_by ts.length

/-- A node that is read without a report derives and denotes. -/
theorem node_sound {t : Token} {ts : List Token} {shop : Workshop η} {ds : List Diagnostic}
    {errors : Nat} (hform : Numerals ts) (h : (node r t ts ⟨shop, ds, errors⟩).site.diagnostics = ds) :
    NodeSound r t ts shop :=
  node_sound_of (fun _ _ _ hsuffix => items_sound (hform.of_suffix hsuffix)) h

/-! ### Trees -/

/-- The snapshot of a tree after it got its name. -/
theorem ofNode_finish {tree : String} {root m : Node β} {s : Site η} {kind : Kind} {name : String}
    {properties : Dict PropertyValue} {kids : List Snapshot}
    (hm : Snapshot.ofNode m = .node kind name properties kids)
    (h : (finish tree m s).result = .ok root) :
    Snapshot.ofNode root =
      .node kind name (properties.insert "treeName" (.text tree)) kids := by
  have hroot : root = (m.setProperty "treeName" (.text tree) s.shop.host).1 :=
    (Except.ok.inj h).symm
  rw [Snapshot.ofNode_eq] at hm
  obtain ⟨rfl, rfl, rfl, rfl⟩ := Snapshot.node.inj hm
  rw [hroot, Snapshot.ofNode_eq, Node.kind_setProperty, Node.name_setProperty,
    Node.properties_setProperty, Node.children_setProperty]

/-- A file whose tree denotes is read without a report. -/
theorem readTokens_of_file {ts : List Token} {tree : String} {b : Block} {shop shop' : Workshop η}
    {snapshot : Snapshot} (hfile : IsFile ts tree b) (hden : Denotes r b shop [snapshot] shop') :
    ∃ m, Snapshot.ofNode m = snapshot ∧ readTokens r ts shop = finish tree m ⟨shop', [], 0⟩ := by
  cases hfile with
  | @mk before after us word name o c w line root body hbefore hword hname ho hroot hc =>
    -- the tokens of the root begin with its word
    obtain ⟨t, us, rfl, ht⟩ : ∃ t vs, us = t :: vs ∧ t.kind = .keyword (.node w) := by
      cases hroot with
      | child hw => exact ⟨_, _, rfl, hw⟩
    obtain ⟨m, hm, hread⟩ := node_of_denotes hroot hden
      (by rw [List.cons_append] : t :: (us ++ c :: after) = (t :: us) ++ c :: after) [] 0
    refine ⟨m, hm, ?_⟩
    have hne : t.kind ≠ .rightBrace := by rw [ht]; exact nofun
    simp only [readTokens, dropWhile_tree hbefore hword, treeAfter, opening_block hname ho,
      List.cons_append]
    rw [treeBody_some hne hread, if_pos hc]

/-- The body of a tree that is read without a report holds a root that denotes. -/
theorem root_of_treeBody {line : Nat} {tree : String} {body : List Token} {shop : Workshop η}
    {root : Node β} (hform : Numerals body)
    (hok : (treeBody r line tree { shop } body).result = .ok root)
    (herrors : (treeBody r line tree { shop } body).errors = 0) :
    ∃ us c after w line name block snapshot shop', body = us ++ c :: after ∧
      c.kind = .rightBrace ∧ Derives us (.child w line name block .nil) ∧
      Denotes r (.child w line name block .nil) shop [snapshot] shop' := by
  obtain ⟨t, ts, m, c, after, site, rfl, hparts, hc, hfinish⟩ := treeBody_ok hok
  -- the root was read without a report, so it derives and denotes
  have hquiet : site.diagnostics = [] := by
    rw [hfinish] at herrors
    have hcounted := node_counted (r := r) (s := { shop }) t ts rfl
    rw [Step.site_eq hparts] at hcounted
    exact List.eq_nil_of_length_eq_zero (hcounted.symm.trans herrors)
  rw [← Step.site_eq hparts] at hquiet
  obtain ⟨us, rest, w, name, block, snapshot, shop', hsplit, hb, hden⟩ :=
    node_sound (hform.of_suffix ⟨[t], rfl⟩) hquiet
  obtain ⟨m', -, hread⟩ := node_of_denotes hb hden hsplit [] 0
  have hafter := (Step.rest_eq hread).symm.trans (Step.rest_eq hparts)
  rw [hafter] at hsplit
  exact ⟨us, c, after, w, t.line, name, block, snapshot, shop', hsplit, hc, hb, hden⟩

/-- A list of tokens that is read without a report is a file whose tree denotes. -/
theorem file_of_readTokens {ts : List Token} {shop : Workshop η} {root : Node β}
    (hform : Numerals ts) (hok : (readTokens r ts shop).result = .ok root)
    (herrors : (readTokens r ts shop).errors = 0) :
    ∃ tree b snapshot shop', IsFile ts tree b ∧ Denotes r b shop [snapshot] shop' := by
  obtain ⟨before, word, name, o, body, rfl, hbefore, hword, hname, ho, hread⟩ := readTokens_ok hok
  have hform' : Numerals body := hform.of_suffix
    ((List.suffix_append [word, name, o] body).trans (List.suffix_append before _))
  rw [hread] at hok herrors
  obtain ⟨us, c, after, w, line, root', block, snapshot, shop', rfl, hc, hb, hden⟩ :=
    root_of_treeBody hform' hok herrors
  exact ⟨name.text, _, snapshot, shop', .mk hbefore hword hname ho hb hc, hden⟩

/-- Reading accepts exactly its grammar and builds what was declared.  Tokens whose numbers have the
    form of numerals are read to a tree without a report exactly when they hold a tree that denotes;
    then its snapshot is what the tree denotes, with the name of the tree as a property.  There is
    only one derivation, and only one denotation of it.  A number is a value exactly when it has a digit,
    and then the value is the double nearest to what it writes. -/
theorem readTokens_accepts_iff (r : Registry β η) (shop : Workshop η) {ts : List Token}
    (hform : Numerals ts) :
    ((∃ root, (readTokens r ts shop).result = .ok root) ∧ (readTokens r ts shop).errors = 0 ↔
      ∃ tree b snapshot shop', IsFile ts tree b ∧ Denotes r b shop [snapshot] shop') ∧
    (∀ {tree b kind name properties kids shop'}, IsFile ts tree b →
      Denotes r b shop [.node kind name properties kids] shop' →
        ∃ root, (readTokens r ts shop).result = .ok root ∧
          Snapshot.ofNode root =
            .node kind name (properties.insert "treeName" (.text tree)) kids) ∧
    (∀ {tree tree' b b'}, IsFile ts tree b → IsFile ts tree' b' → tree = tree' ∧ b = b') ∧
    (∀ {b ss ss' shop₁ shop₂}, Denotes r b shop ss shop₁ → Denotes r b shop ss' shop₂ →
      ss = ss' ∧ shop₁ = shop₂) ∧
    (∀ t ∈ ts, t.kind = .number →
      ((∃ v, IsValue t v) ↔ Decimal.HasDigit t.text.toList) ∧
        ∀ v, IsValue t v →
          ∃ x, v = .number x ∧ Decimal.IsNearest (Decimal.numeralValue t.text.toList) x) := by
  refine ⟨⟨?_, ?_⟩, ?_, ?_, ?_, ?_⟩
  · rintro ⟨⟨root, hok⟩, herrors⟩
    exact file_of_readTokens hform hok herrors
  · rintro ⟨tree, b, snapshot, shop', hfile, hden⟩
    obtain ⟨m, -, hread⟩ := readTokens_of_file hfile hden
    rw [hread]
    exact ⟨⟨_, rfl⟩, rfl⟩
  · intro tree b kind name properties kids shop' hfile hden
    obtain ⟨m, hm, hread⟩ := readTokens_of_file hfile hden
    rw [hread]
    exact ⟨_, rfl, ofNode_finish hm rfl⟩
  · exact fun h h' => h.unique h'
  · exact fun h h' => h.unique h'
  · exact fun t ht hkind => exists_isValue_iff hkind (hform t ht hkind)

/-- The tokens of a node on one line, and what follows it. -/
def nodeTokens (line : Nat) (w : NodeWord) (name : String) (body rest : List Token) : List Token :=
  ⟨.keyword (.node w), line, w.spelling⟩ :: ⟨.identifier, line, name⟩ :: ⟨.leftBrace, line, "\x7b"⟩ ::
    (body ++ ⟨.rightBrace, line, "\x7d"⟩ :: rest)

/-- The tokens of a property on one line, and what follows it. -/
def propertyTokens (line : Nat) (key : String) (kind : TokenKind) (text : String)
    (rest : List Token) : List Token :=
  ⟨.identifier, line, key⟩ :: ⟨.colon, line, ":"⟩ :: ⟨kind, line, text⟩ :: rest

/-- A sequence of a pause that is repeated and a question.  One of its properties is given twice, and
    one has a word of the language as its value. -/
def round : List Token :=
  nodeTokens 2 (.inner .sequence) "round"
    (propertyTokens 3 "pace" .number "2.5"
      (propertyTokens 4 "mode" (.keyword (.node (.inner .sequence))) "Sequence"
        (nodeTokens 5 (.inner .repeater) "again"
          (propertyTokens 5 "count" .number "3."
            (nodeTokens 5 (.leaf .action) "Wait" (propertyTokens 5 "duration" .number ".5" []) []))
          (propertyTokens 6 "pace" .number "3."
            (nodeTokens 7 (.leaf .condition) "HasValue" (propertyTokens 7 "key" .text "door" [])
              [])))))
    []

/-- What these tokens derive. -/
def roundBlock : Block :=
  .child (.inner .sequence) 2 "round"
    (.property "pace" (.number 2.5)
      (.property "mode" (.text "Sequence")
        (.child (.inner .repeater) 5 "again"
          (.property "count" (.number 3.0)
            (.child (.leaf .action) 5 "Wait" (.property "duration" (.number 0.5) .nil) .nil))
          (.property "pace" (.number 3.0)
            (.child (.leaf .condition) 7 "HasValue" (.property "key" (.text "door") .nil) .nil)))))
    .nil

/-- The file of this sequence. -/
def patrol : List Token :=
  ⟨.keyword .tree, 1, "tree"⟩ :: ⟨.identifier, 1, "Patrol"⟩ :: ⟨.leftBrace, 1, "\x7b"⟩ ::
    (round ++ [⟨.rightBrace, 8, "\x7d"⟩])

/-- The snapshot of the sequence with these properties: its children are shown in their order, and the
    leaves with their words. -/
def roundShown (properties : Dict PropertyValue) : Snapshot :=
  .node .sequence "round" properties
    [.node .repeater "again" (Dict.empty.insert "count" (.number 3.0))
        [.node .action "Action:Wait" (Dict.empty.insert "duration" (.number 0.5)) []],
      .node .condition "Condition:HasValue" (Dict.empty.insert "key" (.text "door")) []]

/-- The numbers of the file are digits around a point. -/
theorem patrol_numerals : Numerals patrol := by
  have hpoint (ds es : List Char) (hds : ds.all Char.isDigit = true)
      (hes : es.all Char.isDigit = true) : Decimal.IsNumeral (ds ++ '.' :: es) :=
    (Decimal.isNumeral_of_digits (List.all_eq_true.1 hds) (List.all_eq_true.1 hes)).2
  have hlong := hpoint ['2'] ['5'] rfl rfl
  have hshort := hpoint ['3'] [] rfl rfl
  have hhalf := hpoint [] ['5'] rfl rfl
  simpa [Numerals, patrol, round, nodeTokens, propertyTokens] using ⟨hlong, hshort, hhalf, hshort⟩

theorem patrol_isFile : IsFile patrol "Patrol" roundBlock := by
  -- the values of the numbers
  have hread : Decimal.readFloat? "2.5".toList = some 2.5 ∧
      Decimal.readFloat? "3.".toList = some 3.0 ∧ Decimal.readFloat? ".5".toList = some 0.5 := by
    decide +kernel
  have hlong : IsValue ⟨.number, 3, "2.5"⟩ (.number 2.5) :=
    .number rfl ⟨'5', by decide, by decide⟩ hread.1
  have hdigit : Decimal.HasDigit "3.".toList := ⟨'3', by decide, by decide⟩
  have hshort : ∀ line, IsValue ⟨.number, line, "3."⟩ (.number 3.0) := fun _ =>
    .number rfl hdigit hread.2.1
  have hhalf : IsValue ⟨.number, 5, ".5"⟩ (.number 0.5) :=
    .number rfl ⟨'5', by decide, by decide⟩ hread.2.2
  have hround : Derives round roundBlock :=
    .child rfl rfl rfl
      (.property rfl rfl hlong
        (.property rfl rfl (.word rfl)
          (.child rfl rfl rfl
            (.property rfl rfl (hshort 5)
              (.child rfl rfl rfl (.property rfl rfl hhalf .nil) rfl .nil)) rfl
            (.property rfl rfl (hshort 6)
              (.child rfl rfl rfl (.property rfl rfl (.text rfl) .nil) rfl .nil))))) rfl .nil
  exact @IsFile.mk [] [] round ⟨.keyword .tree, 1, "tree"⟩ ⟨.identifier, 1, "Patrol"⟩
    ⟨.leftBrace, 1, "\x7b"⟩ ⟨.rightBrace, 8, "\x7d"⟩ _ _ _ _ nofun rfl rfl rfl hround rfl

/-- The sequence denotes with the library's own leaves. -/
theorem roundBlock_denotes :
    ∃ shop', Denotes (Registry.withBuiltins id : Registry Builtin Unit) roundBlock ⟨0, ()⟩
      [roundShown ((Dict.empty.insert "pace" (.number 3.0)).insert "mode" (.text "Sequence"))]
      shop' := by
  let r : Registry Builtin Unit := Registry.withBuiltins id
  have hproperties (ps : List (String × PropertyValue)) :=
    Node.get?_setProperties ps (Node.ofControl 0 .inverter : Node Builtin) ()
  have hnone (form : Form) : form.Takes 0 := fun _ hi => absurd hi (Nat.not_lt_zero _)
  have hone : (Form.ofWord .repeater).Takes 1 := by
    intro i hi bound hbound
    obtain rfl : 1 = bound := Option.some.inj hbound
    exact (Nat.zero_add i).trans_lt hi
  have hpause : DenotesNode r _ _ _ [] _ _ _ :=
    .mk (@Provides.action Builtin Unit _ r [("duration", .number 0.5)] "Wait" _ ⟨0, ()⟩ _
      (.ofBehavior 0 .action .pause) (.own rfl) rfl) (hnone _) (hproperties _)
  have hrepeat (kid : Snapshot) : DenotesNode r _ _ _ [kid] _ _ _ :=
    .mk (@Provides.inner Builtin Unit _ r [("count", .number 3.0)] .repeater "again" ⟨1, ()⟩) hone
      (hproperties _)
  have hquestion : DenotesNode r _ _ _ [] _ _ _ :=
    .mk (@Provides.condition Builtin Unit _ r [("key", .text "door")] "HasValue" _ ⟨2, ()⟩ _
      (.ofBehavior 2 .condition .present) (.own rfl) rfl) (hnone _) (hproperties _)
  have hsequence (kids : List Snapshot) : DenotesNode r _ _ _ kids _ _ _ :=
    .mk (@Provides.inner Builtin Unit _ r
      [("pace", .number 2.5), ("mode", .text "Sequence"), ("pace", .number 3.0)] .sequence "round"
      ⟨3, ()⟩) (fun _ _ _ hbound => absurd hbound nofun) (hproperties _)
  exact ⟨_, .child
    (.property (.property (.child (.property (.child (.property .nil) hpause .nil)) (hrepeat _)
      (.property (.child (.property .nil) hquestion .nil))))) (hsequence _) .nil⟩

/-- The tree is read, and it is the one that was declared. -/
theorem patrol_read :
    Numerals patrol ∧
      (readTokens (Registry.withBuiltins id) patrol ⟨0, ()⟩).errors = 0 ∧
      ∃ root, (readTokens (Registry.withBuiltins id) patrol ⟨0, ()⟩).result = .ok root ∧
        Snapshot.ofNode root =
          roundShown (((Dict.empty.insert "pace" (.number 3.0)).insert "mode" (.text "Sequence")).insert
            "treeName" (.text "Patrol")) := by
  obtain ⟨shop', hden⟩ := roundBlock_denotes
  obtain ⟨haccepts, hreads, -⟩ :=
    readTokens_accepts_iff (Registry.withBuiltins id) ⟨0, ()⟩ patrol_numerals
  obtain ⟨root, hok, hsnapshot⟩ := hreads patrol_isFile hden
  exact ⟨patrol_numerals, (haccepts.2 ⟨_, _, _, _, patrol_isFile, hden⟩).2, root, hok, hsnapshot⟩

end BehaviorTree.Source
