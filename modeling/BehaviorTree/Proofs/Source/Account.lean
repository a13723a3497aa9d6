import BehaviorTree.Proofs.Source.Report
import Mathlib

namespace BehaviorTree.Source

/-!
# Every failure is accounted for

Whatever goes wrong in a tree file is reported and counted, and a file that gives no tree says why in
the last of its records.

* `build_none_reports`, `items_none_reports`, `node_none_reports` — what gives nothing has reported
  something;
* `Reading.Accounted` — the count of a reading is that of its records, and its failure or its event
  agrees with them;
* `fail_accounted`, `finish_accounted`, `treeBody_accounted`, `treeAfter_accounted` — this holds
  however the reading ends;
* `failures_accounted` — all of it, for any text and any tokens.
-/

variable {β η : Type}

/-! ### What gives nothing has reported something -/

/-- At the second site something was found that was not found at the first one yet. -/
def Site.Reports (s s' : Site η) : Prop :=
  ∃ report more, s'.diagnostics = s.diagnostics ++ report :: more

theorem Site.reports_report (s : Site η) (d : Diagnostic) : s.Reports (s.report d) := ⟨d, [], rfl⟩

theorem Site.Reports.later {s s' s'' : Site η} (h : s.Reports s')
    (hmore : s'.diagnostics <+: s''.diagnostics) : s.Reports s'' := by
  obtain ⟨report, more, hreport⟩ := h
  obtain ⟨later, hlater⟩ := hmore
  exact ⟨report, more ++ later, by rw [← hlater, hreport, List.append_assoc, List.cons_append]⟩

theorem Site.Reports.from_earlier {s s' s'' : Site η} (hless : s.diagnostics <+: s'.diagnostics)
    (h : s'.Reports s'') : s.Reports s'' := by
  obtain ⟨earlier, hearlier⟩ := hless
  obtain ⟨report, more, hreport⟩ := h
  rw [← hearlier, List.append_assoc] at hreport
  cases earlier with
  | nil => exact ⟨report, more, hreport⟩
  | cons first rest => exact ⟨first, rest ++ report :: more, hreport⟩

variable [Behavior β η] {r : Registry β η}

theorem build_none_reports {d : Declaration β} {s : Site η} (h : (d.build r s).1 = none) :
    s.Reports (d.build r s).2 := by
  unfold Declaration.build at h ⊢
  split
  · exact s.reports_report _
  · next hmake =>
    rw [hmake] at h
    exact absurd h nofun

theorem buildParts_none_reports {s : Site η} {p : Option (Declaration β) × List Token × Site η}
    (hparts : s.diagnostics <+: p.2.2.diagnostics) (hnone : p.1 = none → s.Reports p.2.2)
    (h : (buildParts r p).1 = none) : s.Reports (buildParts r p).2.2 := by
  obtain ⟨d?, rest, site⟩ := p
  cases d? with
  | none => exact hnone rfl
  | some d => exact .from_earlier hparts (build_none_reports h)

/-- Items that give no declaration have reported something. -/
theorem items_none_reports {d : Declaration β} {ts : List Token} {s : Site η}
    (h : (items r d ts s).value = none) : s.Reports (items r d ts s).site := by
  cases hitem : item ts with
  | ended => rw [Step.site_eq (items_ended hitem)]; exact s.reports_report _
  | close rest =>
    rw [Step.value_eq (items_close hitem)] at h
    exact absurd h nofun
  | property key rest =>
    have hrest := length_of_item_property hitem
    cases hv : propertyValue key rest with
    | error wrong => rw [Step.site_eq (items_malformed hitem hv)]; exact s.reports_report _
    | ok read =>
      obtain ⟨v, body⟩ := read
      have hbody := length_of_propertyValue hv
      have hstep := items_property (r := r) (d := d) (s := s) hitem hv
      rw [Step.value_congr hstep] at h
      rw [Step.site_congr hstep]
      exact items_none_reports h
  | child t rest =>
    have hrest := length_of_item_child hitem
    have hle := (node r t rest s).length_le
    have hstep := items_child (r := r) (d := d) (s := s) hitem
    rw [Step.value_congr hstep] at h
    rw [Step.site_congr hstep]
    -- whatever the child reported stays before what the rest of the block reports
    exact .from_earlier (node_reports t rest s) (items_none_reports h)
  | stray t => rw [Step.site_eq (items_stray hitem)]; exact s.reports_report _
termination_by ts.length

/-- A node that is not read has reported something. -/
theorem node_none_reports {t : Token} {ts : List Token} {s : Site η}
    (h : (node r t ts s).value = none) : s.Reports (node r t ts s).site := by
  by_cases hword : ∃ word, t.kind = .keyword (.node word)
  · obtain ⟨word, hkind⟩ := hword
    cases hopen : opening ts with
    | block name body =>
      have hnode := node_block (r := r) (s := s) hkind hopen
      rw [Step.value_eq hnode] at h
      rw [Step.site_eq hnode]
      exact buildParts_none_reports (items_reports _ body s) items_none_reports h
    | bare name rest => rw [Step.site_eq (node_bare hkind hopen)]; exact s.reports_report _
    | nameless => rw [Step.site_eq (node_nameless hkind hopen)]; exact s.reports_report _
  · have hword' : ∀ word, t.kind ≠ .keyword (.node word) := fun word h => hword ⟨word, h⟩
    by_cases hname : t.kind = .identifier
    · rw [Step.site_eq (node_unknown hname)]; exact s.reports_report _
    · rw [Step.site_eq (node_unexpected hword' hname)]; exact s.reports_report _

/-! ### The account of a reading -/

/-- The records of a reading in the order in which they were sent. -/
def Reading.records (p : Reading β η) : List Log.Record := p.diagnostics.map Diagnostic.record

/-- What the record of a failure is: it has the message of the failure, the line of a tree that is
    wrong, and no node.  Reading a text fails in no other way. -/
inductive Failure.Told : Failure → Log.Record → Prop where
  | treeMissing : Told .treeMissing ⟨.error, "dsl.parse", none, none, Failure.treeMissing.message⟩
  | malformed (line : Nat) (fault : Fault) :
    Told (.malformed line fault) ⟨.error, "dsl.parse", none, some line, fault.message⟩

/-- A reading accounts for its failures, where `missing` says that there is no tree to be read. -/
structure Reading.Accounted (missing : Prop) (p : Reading β η) : Prop where
  /-- Every record is an error of the parser. -/
  errors_only : ∀ record ∈ p.records, record.level = .error ∧ record.category = "dsl.parse"
  /-- The count is that of the records. -/
  count : p.errors = p.records.length
  /-- A missing tree is reported when it is missing, and only then. -/
  treeMissing_iff : p.result = .error .treeMissing ↔ missing
  /-- The last record is that of the failure. -/
  failure : ∀ f, p.result = .error f →
    (∃ earlier last, p.records = earlier ++ [last] ∧ f.Told last) ∧ p.events = []
  /-- The event of a tree tells the count. -/
  success : ∀ root, p.result = .ok root → ∃ tree, p.events = [.treeParsed tree p.records.length]

section

omit [Behavior β η]

/-- Whatever was found, its record is an error of the parser. -/
theorem Reading.records_errors (p : Reading β η) :
    ∀ record ∈ p.records, record.level = .error ∧ record.category = "dsl.parse" := by
  intro record hmem
  obtain ⟨d, -, rfl⟩ := List.mem_map.1 hmem
  exact ⟨rfl, rfl⟩

/-- A reading that fails says why in its last record. -/
theorem fail_accounted {failure : Failure} {missing : Prop} {s : Site η} (hs : s.Counted)
    (htold : failure.Told failure.diagnostic.record) (hmissing : failure = .treeMissing ↔ missing) :
    (fail failure s : Reading β η).Accounted missing where
  errors_only := Reading.records_errors _
  count := by
    have hcount := hs.report failure.diagnostic
    rw [Reading.records, List.length_map]
    exact hcount
  treeMissing_iff := by
    rw [← hmissing]
    exact ⟨Except.error.inj, congrArg _⟩
  failure f hf := by
    obtain rfl : failure = f := Except.error.inj hf
    exact ⟨⟨_, _, List.map_append, htold⟩, rfl⟩
  success _ h := absurd h nofun

theorem fail_malformed_accounted (line : Nat) (fault : Fault) {s : Site η} (hs : s.Counted) :
    (fail (.malformed line fault) s : Reading β η).Accounted False :=
  fail_accounted hs (.malformed line fault) ⟨nofun, nofun⟩

end

theorem finish_accounted (tree : String) (root : Node β) {s : Site η} (hs : s.Counted) :
    (finish tree root s).Accounted False where
  errors_only := Reading.records_errors _
  count := by
    rw [Reading.records, List.length_map]
    exact hs
  treeMissing_iff := ⟨nofun, nofun⟩
  failure _ h := absurd h nofun
  success _ _ := by
    refine ⟨tree, ?_⟩
    rw [Reading.records, List.length_map]
    exact congrArg (fun n => [Event.treeParsed tree n]) hs

theorem treeBody_accounted (line : Nat) (tree : String) {s : Site η} (hs : s.Counted)
    (ts : List Token) : (treeBody r line tree s ts).Accounted False := by
  cases ts with
  | nil => exact fail_malformed_accounted line _ hs
  | cons t ts =>
    by_cases ht : t.kind = .rightBrace
    · rw [treeBody, if_pos ht]
      exact fail_malformed_accounted line _ hs
    · have hsite := node_counted (r := r) t ts hs
      rcases hnode : (node r t ts s).parts with ⟨value, rest, site⟩
      rw [Step.site_eq hnode] at hsite
      cases value with
      | none =>
        rw [treeBody_none ht hnode]
        exact fail_malformed_accounted line _ hsite
      | some root =>
        cases rest with
        | nil =>
          rw [treeBody_open ht hnode]
          exact fail_malformed_accounted line _ hsite
        | cons c rest =>
          rw [treeBody_some ht hnode]
          split
          · exact finish_accounted tree root hsite
          · exact fail_malformed_accounted c.line _ hsite

theorem treeAfter_accounted (line : Nat) (ts : List Token) {s : Site η} (hs : s.Counted) :
    (treeAfter r line ts s).Accounted False := by
  unfold treeAfter
  split
  · exact treeBody_accounted line _ hs _
  · exact fail_malformed_accounted line _ hs
  · exact fail_malformed_accounted line _ hs

/-- Reading tokens accounts for every failure. -/
theorem readTokens_accounted (r : Registry β η) (ts : List Token) (shop : Workshop η) :
    (readTokens r ts shop).Accounted (∀ t ∈ ts, t.kind ≠ .keyword .tree) := by
  have hs : ({ shop } : Site η).Counted := rfl
  have hdrop := List.dropWhile_eq_nil_iff (p := fun t : Token => t.kind ≠ .keyword .tree) (l := ts)
  simp only [decide_eq_true_eq] at hdrop
  unfold readTokens
  split
  · next h => exact fail_accounted hs .treeMissing ⟨fun _ => hdrop.1 h, fun _ => rfl⟩
  · next t rest h =>
    have hfound : ¬ ∀ t ∈ ts, t.kind ≠ .keyword .tree := fun hall => by
      rw [hdrop.2 hall] at h
      cases h
    rw [eq_false hfound]
    exact treeAfter_accounted t.line rest hs

/-- Every failure is accounted for, whatever the source and the registry.  All records of a reading
    are errors of the parser, and the count is theirs; the missing tree is the answer exactly when no
    token is the word `tree`; any other failure, and this one, is the last record; a tree tells the
    count with its event.  A node that begins with any token, read at any point of any file, reports
    something if it is not read, and the count keeps up. -/
theorem failures_accounted (r : Registry β η) :
    (∀ source shop,
      (read r source shop).Accounted (∀ t ∈ scan source, t.kind ≠ .keyword .tree)) ∧
    (∀ ts shop, (readTokens r ts shop).Accounted (∀ t ∈ ts, t.kind ≠ .keyword .tree)) ∧
    ∀ t ts (s : Site η), (s.Counted → (node r t ts s).site.Counted) ∧
      ((node r t ts s).value = none → s.Reports (node r t ts s).site) :=
  ⟨fun source shop => readTokens_accounted r (scan source) shop,
    fun ts shop => readTokens_accounted r ts shop,
    fun t ts _ => ⟨node_counted t ts, node_none_reports⟩⟩

/-- A tree with a root of no known kind. -/
def flight : String := "tree Patrol \x7b\n  Fly up \x7b\x7d\n\x7d"

/-- The tokens of this tree after the word for its root. -/
def flightTail : List Token :=
  [⟨.identifier, 2, "up"⟩, ⟨.leftBrace, 2, "\x7b"⟩, ⟨.rightBrace, 2, "\x7d"⟩,
    ⟨.rightBrace, 3, "\x7d"⟩]

/-- The root that is not read is reported, and after it the tree that lacks a root. -/
theorem flight_accounted :
    let root := node (Registry.withBuiltins id) ⟨.identifier, 2, "Fly"⟩ flightTail
      { shop := ⟨0, ()⟩ }
    let reading := read (Registry.withBuiltins id) flight ⟨0, ()⟩
    root.value = none ∧ Site.Reports { shop := ⟨0, ()⟩ } root.site ∧ root.site.Counted ∧
      reading.result = .error (.malformed 1 (.rootInvalid "Patrol")) ∧
      reading.records =
        [⟨.error, "dsl.parse", none, some 2, "unknown node type 'Fly'"⟩,
          ⟨.error, "dsl.parse", none, some 1, "tree 'Patrol' has no valid root node"⟩] ∧
      reading.Accounted (∀ t ∈ scan flight, t.kind ≠ .keyword .tree) := by
  have hscan : scan flight =
      ⟨.keyword .tree, 1, "tree"⟩ :: ⟨.identifier, 1, "Patrol"⟩ :: ⟨.leftBrace, 1, "\x7b"⟩ ::
        ⟨.identifier, 2, "Fly"⟩ :: flightTail := by cbv
  obtain ⟨htext, -, hnode⟩ :=
    failures_accounted (Registry.withBuiltins id : Registry Builtin Unit)
  have hroot : (node (Registry.withBuiltins id : Registry Builtin Unit) ⟨.identifier, 2, "Fly"⟩
        flightTail { shop := ⟨0, ()⟩ }).parts =
      (none, skipNode flightTail,
        Site.report { shop := ⟨0, ()⟩ } { fault := .wordUnknown "Fly", line := some 2 }) :=
    node_unknown rfl
  have hread : read (Registry.withBuiltins id : Registry Builtin Unit) flight ⟨0, ()⟩ =
      fail (.malformed 1 (.rootInvalid "Patrol")) (Site.report { shop := ⟨0, ()⟩ }
        { fault := .wordUnknown "Fly", line := some 2 }) := by
    rw [Source.read, hscan]
    have hopen : TokenKind.identifier ≠ .rightBrace := by decide
    exact treeBody_none hopen hroot
  have hnone := Step.value_eq hroot
  refine ⟨hnone, (hnode _ _ _).2 hnone, (hnode _ _ _).1 rfl, ?_, ?_, htext flight ⟨0, ()⟩⟩
  · rw [hread]
    rfl
  · rw [hread]
    rfl

end BehaviorTree.Source
