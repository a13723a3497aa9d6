import BehaviorTree.Proofs.Source.Steps

namespace BehaviorTree.Source

/-!
# Reports

Reading adds to what was found wrong and does not look at it.  `s.after before` is the site `s` with
what was found at the site `before` found earlier.

* `build_after`, `node_after`, `items_after` — with more found earlier, reading gives the same, and
  finds the same after it;
* `addChildren_reports`, `build_reports`, `node_reports`, `items_reports` — what was found stays, in
  its order;
* `build_counted`, `node_counted`, `items_counted` — the count keeps up with what was found.
-/

variable {β η : Type}

/-- The site with what was found at another one before everything else. -/
def Site.after (s before : Site η) : Site η where
  shop := s.shop
  diagnostics := before.diagnostics ++ s.diagnostics
  errors := before.errors + s.errors

@[simp]
theorem Site.shop_after (before s : Site η) : (s.after before).shop = s.shop := rfl

theorem Site.report_after (before s : Site η) (d : Diagnostic) :
    (s.after before).report d = (s.report d).after before := by
  simp only [Site.after, Site.report, List.append_assoc, Nat.add_assoc]

/-- Every site is one where nothing was found yet, with its own findings before. -/
theorem Site.eq_after (s : Site η) : s = ({ shop := s.shop } : Site η).after s := by
  simp only [Site.after, List.append_nil, Nat.add_zero]

/-- The parts of a step with more found wrong before everything else. -/
def partsAfter {α : Type} (before : Site η) (p : α × List Token × Site η) :
    α × List Token × Site η :=
  (p.1, p.2.1, p.2.2.after before)

theorem addChildren_after (line : Nat) (before : Site η) (n : Node β) (s : Site η)
    (cs : List (Node β)) :
    addChildren line n (s.after before) cs =
      ((addChildren line n s cs).1, (addChildren line n s cs).2.after before) := by
  induction cs generalizing n s with
  | nil => rfl
  | cons c cs ih =>
    simp only [addChildren]
    split
    · exact ih _ s
    · rw [Site.report_after]
      exact ih _ _

theorem addChildren_reports (line : Nat) (n : Node β) (s : Site η) (cs : List (Node β)) :
    s.diagnostics <+: (addChildren line n s cs).2.diagnostics := by
  have h := addChildren_after line s n { shop := s.shop } cs
  rw [← s.eq_after] at h
  rw [h]
  exact List.prefix_append _ _

/-- A report is not undone. -/
theorem Site.not_report_prefix (s : Site η) (d : Diagnostic) :
    ¬ (s.report d).diagnostics <+: s.diagnostics := by
  intro h
  have hle := h.length_le
  simp only [Site.report, List.length_append, List.length_singleton] at hle
  omega

theorem Site.report_ne (s : Site η) (d : Diagnostic) :
    (s.report d).diagnostics ≠ s.diagnostics := by
  intro h
  apply s.not_report_prefix d
  exact ⟨[], (List.append_nil _).trans h⟩

/-- If nothing is left to report at the end, there was nothing in between either. -/
theorem eq_of_prefix {ds es fs : List Diagnostic} (h : ds <+: es) (h' : es <+: fs) (heq : fs = ds) :
    es = ds := by
  rw [heq] at h'
  exact h'.eq_of_length_le h.length_le

variable [Behavior β η] {r : Registry β η}

theorem build_after (before : Site η) (d : Declaration β) (s : Site η) :
    d.build r (s.after before) = ((d.build r s).1, (d.build r s).2.after before) := by
  unfold Declaration.build
  split
  · rw [Site.report_after]
  · simp only [Site.shop_after]
    have hchildren := fun (n : Node β) (shop : Workshop η) =>
      addChildren_after d.line before n { s with shop } d.children
    simp only [Site.after] at hchildren ⊢
    simp only [hchildren]

theorem buildParts_after (before : Site η)
    (p : Option (Declaration β) × List Token × Site η) :
    buildParts r (partsAfter before p) = partsAfter before (buildParts r p) := by
  obtain ⟨d?, rest, s⟩ := p
  cases d? with
  | none => rfl
  | some d => simp only [partsAfter, buildParts, build_after]

/-- The recursion from a node into its block. -/
theorem node_after_of (before : Site η) (t : Token) (ts : List Token) (s : Site η)
    (hitems : ∀ (d : Declaration β) (body : List Token), body.length < ts.length →
      (items r d body (s.after before)).parts = partsAfter before (items r d body s).parts) :
    (node r t ts (s.after before)).parts = partsAfter before (node r t ts s).parts := by
  by_cases hword : ∃ word, t.kind = .keyword (.node word)
  · obtain ⟨word, hkind⟩ := hword
    cases h : opening ts with
    | block name body =>
      have hbody := hitems { word, name, line := t.line, properties := [], children := [] } body
        (length_of_opening_block h)
      rw [node_block hkind h, node_block hkind h, hbody, buildParts_after]
    | bare name rest => rw [node_bare hkind h, node_bare hkind h, Site.report_after]; rfl
    | nameless => rw [node_nameless hkind h, node_nameless hkind h, Site.report_after]; rfl
  · have hword' : ∀ word, t.kind ≠ .keyword (.node word) := fun word h => hword ⟨word, h⟩
    by_cases hname : t.kind = .identifier
    · rw [node_unknown hname, node_unknown hname, Site.report_after]; rfl
    · rw [node_unexpected hword' hname, node_unexpected hword' hname, Site.report_after]; rfl

/-- With more found wrong earlier, the items of a block give the same. -/
theorem items_after (before : Site η) (d : Declaration β) (ts : List Token)
    (s : Site η) :
    (items r d ts (s.after before)).parts = partsAfter before (items r d ts s).parts := by
  cases h : item ts with
  | ended => rw [items_ended h, items_ended h, Site.report_after]; rfl
  | close rest => rw [items_close h, items_close h]; rfl
  | property key rest =>
    have hrest := length_of_item_property h
    cases hv : propertyValue key rest with
    | error wrong => rw [items_malformed h hv, items_malformed h hv, Site.report_after]; rfl
    | ok read =>
      obtain ⟨v, body⟩ := read
      have hbody := length_of_propertyValue hv
      rw [items_property h hv, items_property h hv]
      exact items_after before _ body s
  | child t rest =>
    -- a child and what follows it are both shorter than the block
    have hrest := length_of_item_child h
    have hle := (node r t rest s).length_le
    have hnode := node_after_of before t rest s fun d' body hbody => items_after before d' body s
    rw [items_child h, items_child h, Step.value_eq hnode, Step.rest_eq hnode, Step.site_eq hnode]
    exact items_after before _ (node r t rest s).rest _
  | stray t => rw [items_stray h, items_stray h, Site.report_after]; rfl
termination_by ts.length

/-- With more found wrong earlier, a node gives the same. -/
theorem node_after (before : Site η) (t : Token) (ts : List Token) (s : Site η) :
    (node r t ts (s.after before)).parts = partsAfter before (node r t ts s).parts :=
  node_after_of before t ts s fun d body _ => items_after before d body s

/-! ### What was found stays -/

theorem build_reports (d : Declaration β) (s : Site η) :
    s.diagnostics <+: (d.build r s).2.diagnostics := by
  have h := build_after (r := r) s d { shop := s.shop }
  rw [← s.eq_after] at h
  rw [h]
  exact List.prefix_append _ _

theorem buildParts_reports (p : Option (Declaration β) × List Token × Site η) :
    p.2.2.diagnostics <+: (buildParts r p).2.2.diagnostics := by
  obtain ⟨d?, rest, s⟩ := p
  cases d? with
  | none => exact List.prefix_rfl
  | some d => exact build_reports d s

theorem node_reports (t : Token) (ts : List Token) (s : Site η) :
    s.diagnostics <+: (node r t ts s).site.diagnostics := by
  have h := node_after (r := r) s t ts { shop := s.shop }
  rw [← s.eq_after] at h
  rw [Step.site_eq h]
  exact List.prefix_append _ _

theorem items_reports (d : Declaration β) (ts : List Token) (s : Site η) :
    s.diagnostics <+: (items r d ts s).site.diagnostics := by
  have h := items_after (r := r) s d ts { shop := s.shop }
  rw [← s.eq_after] at h
  rw [Step.site_eq h]
  exact List.prefix_append _ _

/-! ### What was found is counted -/

/-- The count is that of what was found. -/
def Site.Counted (s : Site η) : Prop := s.errors = s.diagnostics.length

theorem Site.Counted.report {s : Site η} (h : s.Counted) (d : Diagnostic) : (s.report d).Counted := by
  unfold Site.Counted at h ⊢
  rw [Site.report, List.length_append, List.length_singleton, h]

omit [Behavior β η] in
theorem addChildren_counted (line : Nat) (n : Node β) {s : Site η} (h : s.Counted)
    (cs : List (Node β)) : (addChildren line n s cs).2.Counted := by
  induction cs generalizing n s with
  | nil => exact h
  | cons c cs ih =>
    unfold addChildren
    split
    · exact ih _ h
    · exact ih _ (h.report _)

theorem build_counted (d : Declaration β) {s : Site η} (h : s.Counted) :
    (d.build r s).2.Counted := by
  unfold Declaration.build
  split
  · exact h.report _
  · next make _ =>
    -- name and properties report nothing
    let n := ((make s.shop).1.setName (displayName d.word d.name)).setProperties d.properties
      (make s.shop).2.host
    have hsite : ({ s with shop := { (make s.shop).2 with host := n.2 } } : Site η).Counted := h
    exact addChildren_counted d.line n.1 hsite d.children

theorem buildParts_counted {p : Option (Declaration β) × List Token × Site η}
    (h : p.2.2.Counted) : (buildParts r p).2.2.Counted := by
  obtain ⟨d?, rest, s⟩ := p
  cases d? with
  | none => exact h
  | some d => exact build_counted d h

/-- The recursion from a node into its block. -/
theorem node_counted_of (t : Token) (ts : List Token) {s : Site η} (h : s.Counted)
    (hitems : ∀ (d : Declaration β) (body : List Token), body.length < ts.length →
      (items r d body s).site.Counted) : (node r t ts s).site.Counted := by
  by_cases hword : ∃ word, t.kind = .keyword (.node word)
  · obtain ⟨word, hkind⟩ := hword
    cases hopen : opening ts with
    | block name body =>
      have hbody := hitems { word, name, line := t.line, properties := [], children := [] } body
        (length_of_opening_block hopen)
      rw [Step.site_eq (node_block hkind hopen)]
      exact buildParts_counted hbody
    | bare name rest => rw [Step.site_eq (node_bare hkind hopen)]; exact h.report _
    | nameless => rw [Step.site_eq (node_nameless hkind hopen)]; exact h.report _
  · have hword' : ∀ word, t.kind ≠ .keyword (.node word) := fun word h => hword ⟨word, h⟩
    by_cases hname : t.kind = .identifier
    · rw [Step.site_eq (node_unknown hname)]; exact h.report _
    · rw [Step.site_eq (node_unexpected hword' hname)]; exact h.report _

theorem items_counted (d : Declaration β) (ts : List Token) {s : Site η} (h : s.Counted) :
    (items r d ts s).site.Counted := by
  cases hitem : item ts with
  | ended => rw [Step.site_eq (items_ended hitem)]; exact h.report _
  | close rest => rw [Step.site_eq (items_close hitem)]; exact h
  | property key rest =>
    have hrest := length_of_item_property hitem
    cases hv : propertyValue key rest with
    | error wrong => rw [Step.site_eq (items_malformed hitem hv)]; exact h.report _
    | ok read =>
      obtain ⟨v, body⟩ := read
      have hbody := length_of_propertyValue hv
      rw [Step.site_congr (items_property hitem hv)]
      exact items_counted _ body h
  | child t rest =>
    have hrest := length_of_item_child hitem
    have hle := (node r t rest s).length_le
    have hnode := node_counted_of t rest h fun d' body hbody => items_counted d' body h
    rw [Step.site_congr (items_child hitem)]
    exact items_counted _ (node r t rest s).rest hnode
  | stray t => rw [Step.site_eq (items_stray hitem)]; exact h.report _
termination_by ts.length

theorem node_counted (t : Token) (ts : List Token) {s : Site η} (h : s.Counted) :
    (node r t ts s).site.Counted :=
  node_counted_of t ts h fun d body _ => items_counted d body h

end BehaviorTree.Source
