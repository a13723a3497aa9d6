import BehaviorTree.Proofs.Source.Acceptance
import BehaviorTree.Proofs.Source.RoundTrip

namespace BehaviorTree.Source

/-!
# Where declarations come from

Whatever is wrong with a tree file, every node that is read from it was built from a declaration whose
name, keys and values stand among the tokens of the file.  So what building keeps, and what holds of the
tokens, holds of every tree that is read.

* `Grown` — a tree that was built from such declarations all the way down;
* `items_grown`, `node_grown` — reading tokens gives such trees only;
* `grown_of_read` — so does reading the text of a file, up to the name of the tree.
-/

variable {β η : Type} [Behavior β η] {r : Registry β η} {all : List Token}

/-- The name, the keys and the values of a declaration stand among the tokens. -/
structure Declaration.DrawnFrom (ts : List Token) (d : Declaration β) : Prop where
  name : ∃ t ∈ ts, t.kind = .identifier ∧ t.text = d.name
  keys : ∀ p ∈ d.properties, ∃ t ∈ ts, t.kind = .identifier ∧ t.text = p.1
  values : ∀ p ∈ d.properties, ∃ t ∈ ts, IsValue t p.2

/-- The tree was built from declarations all the way down, and what these say stands among the
    tokens. -/
inductive Grown (r : Registry β η) (ts : List Token) : Node β → Prop
  | build {d : Declaration β} {s : Site η} {n : Node β} :
    d.DrawnFrom ts → (∀ c ∈ d.children, Grown r ts c) → (d.build r s).1 = some n → Grown r ts n

/-- A declaration from which such a tree is built. -/
structure Declaration.GrownFrom (r : Registry β η) (ts : List Token) (d : Declaration β) : Prop where
  drawn : d.DrawnFrom ts
  children : ∀ c ∈ d.children, Grown r ts c

/-! ### Tokens that are left -/

theorem skipBlock_suffix (inner : Nat) (ts : List Token) : skipBlock inner ts <:+ ts := by
  fun_induction skipBlock inner ts with
  | case1 => exact List.suffix_rfl
  | case2 inner t ts _ ih => exact ih.trans (List.suffix_cons t ts)
  | case3 t ts _ => exact List.suffix_cons t ts
  | case4 t ts _ inner ih => exact ih.trans (List.suffix_cons t ts)
  | case5 inner t ts _ _ ih => exact ih.trans (List.suffix_cons t ts)

theorem skipNode_suffix (ts : List Token) : skipNode ts <:+ ts := by
  fun_induction skipNode ts with
  | case1 => exact List.suffix_rfl
  | case2 => exact List.suffix_rfl
  | case3 t ts _ => exact (skipBlock_suffix 0 ts).trans (List.suffix_cons t ts)
  | case4 t ts _ _ ih => exact ih.trans (List.suffix_cons t ts)

theorem suffix_of_opening_bare {ts rest : List Token} {name : String}
    (h : opening ts = .bare name rest) : rest <:+ ts := by
  unfold opening at h
  split at h
  · exact absurd h nofun
  · obtain ⟨-, rfl⟩ := by simpa using h
    exact List.suffix_cons _ _
  · exact absurd h nofun

/-- What a step gave, if anything, has a property, and the tokens that it left are the last ones. -/
structure Gives {α : Type} (all : List Token) (P : α → Prop) (p : Option α × List Token × Site η) :
    Prop where
  value : ∀ a, p.1 = some a → P a
  rest : p.2.1 <:+ all

theorem gives_none {α : Type} {P : α → Prop} {rest : List Token} {s : Site η}
    (h : rest <:+ all) : Gives all P (none, rest, s) := ⟨nofun, h⟩

/-! ### Nodes -/

theorem buildParts_grown {p : Option (Declaration β) × List Token × Site η}
    (h : Gives all (Declaration.GrownFrom r all) p) : Gives all (Grown r all) (buildParts r p) := by
  obtain ⟨d?, rest, s⟩ := p
  cases d? with
  | none => exact gives_none h.rest
  | some d =>
    have hd := h.value d rfl
    exact ⟨fun n hn => .build hd.drawn hd.children hn, h.rest⟩

/-- The recursion from a node into its block. -/
theorem node_grown_of {t : Token} {ts : List Token} {s : Site η} (hsuffix : ts <:+ all)
    (hitems : ∀ (d : Declaration β) (body : List Token), body.length < ts.length → body <:+ all →
      d.GrownFrom r all → Gives all (Declaration.GrownFrom r all) (items r d body s).parts) :
    Gives all (Grown r all) (node r t ts s).parts := by
  by_cases hword : ∃ w, t.kind = .keyword (.node w)
  · obtain ⟨w, hkind⟩ := hword
    cases hopen : opening ts with
    | block text body =>
      rw [node_block hkind hopen]
      have hlt := length_of_opening_block hopen
      obtain ⟨name, o, rfl, hname, rfl, -⟩ := block_of_opening hopen
      have hmem : name ∈ all := hsuffix.subset List.mem_cons_self
      have hbody : body <:+ all := List.IsSuffix.trans ⟨[name, o], rfl⟩ hsuffix
      apply buildParts_grown
      exact hitems _ body hlt hbody ⟨⟨⟨name, hmem, hname, rfl⟩, nofun, nofun⟩, nofun⟩
    | bare text rest =>
      rw [node_bare hkind hopen]
      have hrest := (skipNode_suffix rest).trans (suffix_of_opening_bare hopen)
      exact gives_none (hrest.trans hsuffix)
    | nameless =>
      rw [node_nameless hkind hopen]
      exact gives_none ((skipNode_suffix ts).trans hsuffix)
  · have hword' : ∀ w, t.kind ≠ .keyword (.node w) := fun w h => hword ⟨w, h⟩
    have hskip := (skipNode_suffix ts).trans hsuffix
    by_cases hname : t.kind = .identifier
    · rw [node_unknown hname]
      exact gives_none hskip
    · rw [node_unexpected hword' hname]
      exact gives_none hskip

/-- The declaration of a block is made of what stands in it. -/
theorem items_grown {d : Declaration β} {ts : List Token} {s : Site η} (hform : Numerals all)
    (hsuffix : ts <:+ all) (hd : d.GrownFrom r all) :
    Gives all (Declaration.GrownFrom r all) (items r d ts s).parts := by
  cases hitem : item ts with
  | ended =>
    rw [items_ended hitem]
    exact gives_none List.nil_suffix
  | close rest =>
    obtain ⟨c, rfl, -⟩ := close_of_item hitem
    rw [items_close hitem]
    refine ⟨?_, (List.suffix_cons c rest).trans hsuffix⟩
    rintro _ ⟨⟩
    exact hd
  | property text rest =>
    have hrest := length_of_item_property hitem
    obtain ⟨key, colon, rfl, hkey, rfl, -⟩ := property_of_item hitem
    have hsuffix' : rest <:+ all := List.IsSuffix.trans ⟨[key, colon], rfl⟩ hsuffix
    cases hv : propertyValue key.text rest with
    | error wrong =>
      rw [items_malformed hitem hv]
      exact gives_none ((skipBlock_suffix 0 rest).trans hsuffix')
    | ok read =>
      obtain ⟨v, body⟩ := read
      have hlt := length_of_propertyValue hv
      obtain ⟨t, rfl, hvalue⟩ := isValue_of_propertyValue (hform.of_suffix hsuffix') hv
      have hkeymem : key ∈ all := hsuffix.subset List.mem_cons_self
      have hvaluemem : t ∈ all := hsuffix'.subset List.mem_cons_self
      rw [items_property hitem hv]
      refine items_grown hform ((List.suffix_cons t body).trans hsuffix')
        ⟨⟨hd.drawn.name, ?_, ?_⟩, hd.children⟩
      · exact List.forall_mem_append.2
          ⟨hd.drawn.keys, List.forall_mem_singleton.2 ⟨key, hkeymem, hkey, rfl⟩⟩
      · exact List.forall_mem_append.2
          ⟨hd.drawn.values, List.forall_mem_singleton.2 ⟨t, hvaluemem, hvalue⟩⟩
  | child t rest =>
    have hrest := length_of_item_child hitem
    have hle := (node r t rest s).length_le
    obtain rfl := child_of_item hitem
    -- a child and what follows it are both shorter than the block
    have hchild : Gives all (Grown r all) (node r t rest s).parts :=
      node_grown_of ((List.suffix_cons t rest).trans hsuffix)
        fun d' body hbody hsuffix' hd' => items_grown hform hsuffix' hd'
    rw [items_child hitem]
    refine items_grown hform hchild.rest
      ⟨⟨hd.drawn.name, hd.drawn.keys, hd.drawn.values⟩, ?_⟩
    refine List.forall_mem_append.2 ⟨hd.children, fun c hc => hchild.value c ?_⟩
    exact Option.mem_toList.1 hc
  | stray t =>
    rw [items_stray hitem]
    exact gives_none ((skipBlock_suffix 0 ts).trans hsuffix)
termination_by ts.length

/-- A node that is read was built. -/
theorem node_grown {t : Token} {ts : List Token} {s : Site η} (hform : Numerals all)
    (hsuffix : ts <:+ all) : Gives all (Grown r all) (node r t ts s).parts :=
  node_grown_of hsuffix fun _ _ _ hsuffix' hd => items_grown hform hsuffix' hd

/-! ### Files -/

/-- A tree that is read is the root that was built, with the name of the tree as a property. -/
theorem grown_of_treeBody {line : Nat} {tree : String} {body : List Token} {s : Site η}
    {root : Node β} (hform : Numerals all) (hsuffix : body <:+ all)
    (hok : (treeBody r line tree s body).result = .ok root) :
    ∃ m, ∃ host : η, Grown r all m ∧ root = (m.setProperty "treeName" (.text tree) host).1 := by
  obtain ⟨t, ts, m, c, after, site, rfl, hparts, -, hfinish⟩ := treeBody_ok hok
  have hnode : Gives all (Grown r all) (node r t ts s).parts :=
    node_grown hform ((List.suffix_cons t ts).trans hsuffix)
  rw [hparts] at hnode
  rw [hfinish] at hok
  exact ⟨m, site.shop.host, hnode.value m rfl, (Except.ok.inj hok).symm⟩

theorem numerals_scan (source : String) : Numerals (scan source) := by
  intro t ht hkind
  have hvalid := ((valid_scan source).1 t ht).1
  rw [Token.Valid, hkind] at hvalid
  exact hvalid.2

/-- A tree that is read from the text of a file was built from what stands in it, and then got the
    name of the tree. -/
theorem grown_of_read {source : String} {shop : Workshop η} {root : Node β}
    (hok : (read r source shop).result = .ok root) :
    ∃ m tree, ∃ host : η, Grown r (scan source) m ∧
      root = (m.setProperty "treeName" (.text tree) host).1 := by
  obtain ⟨before, word, name, o, body, hscan, -, -, -, -, hread⟩ := readTokens_ok hok
  have hsuffix : body <:+ scan source := ⟨before ++ [word, name, o], by rw [hscan]; simp⟩
  rw [Source.read, hread] at hok
  obtain ⟨m, host, hm, hroot⟩ := grown_of_treeBody (numerals_scan source) hsuffix hok
  exact ⟨m, name.text, host, hm, hroot⟩

end BehaviorTree.Source
