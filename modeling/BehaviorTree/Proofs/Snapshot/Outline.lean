import BehaviorTree.Proofs.Decimal.Rendering
import BehaviorTree.Proofs.Snapshot.Preorder
import BehaviorTree.Proofs.Snapshot.Same
import BehaviorTree.Proofs.Text.Delimited
import BehaviorTree.Snapshot.Outline

namespace BehaviorTree

/-!
# Outlines tell snapshots apart

An outline can be read back line by line: the blanks at the beginning of a line give the depth, the kind
ends with a blank and the name with a blank or the line.  A key ends with a colon, a quoted text with its
quote, and a number with a comma or a brace.  This takes names without blanks and line ends, keys
without colons and numbers that are not NaN.

* `Snapshot.Legible` — a snapshot with such names, keys and numbers;
* `delimited_outlineProperty`, `delimited_outlineEntries`, `delimited_outlineLine` — a property, all
  properties of a node, and its line can be cut off;
* `Snapshot.Legible.eq_of_outline`, `Snapshot.Legible.outline_eq_iff` — legible snapshots with the same
  outline are equal;
* `Snapshot.Legible.splitOn_outline` — the lines of an outline are the nodes in preorder.
-/

open Text (Delimited delimited_before delimited_until)

/-- A value is not a NaN and not a number with a sign. -/
def PropertyValue.Legible : PropertyValue → Prop
  | .number x => x ≠ Float.nan ∧ Decimal.Unsigned x
  | .text _ => True

theorem PropertyValue.Legible.unsigned {v : PropertyValue} (h : v.Legible) : v.Unsigned := by
  cases v with
  | number x => exact h.2
  | text s => trivial

/-- A name ends where a blank or the line ends it. -/
def LegibleName (name : String) : Prop := ' ' ∉ name.toList ∧ '\n' ∉ name.toList

/-- A key ends where a colon ends it, within its line. -/
def LegibleKey (key : String) : Prop := ':' ∉ key.toList ∧ '\n' ∉ key.toList

/-- The keys and the values are legible. -/
def LegibleProperties (d : Dict PropertyValue) : Prop :=
  ∀ e ∈ d.entries, LegibleKey e.1 ∧ e.2.Legible

theorem LegibleProperties.insert {d : Dict PropertyValue} (h : LegibleProperties d) {key : String}
    (hkey : LegibleKey key) {v : PropertyValue} (hv : v.Legible) :
    LegibleProperties (d.insert key v) := by
  intro e he
  rcases Dict.mem_of_mem_put he with rfl | he
  · exact ⟨hkey, hv⟩
  · exact h e he

theorem LegibleProperties.unsigned {d : Dict PropertyValue} (h : LegibleProperties d) :
    UnsignedProperties d := fun e he => (h e he).2.unsigned

namespace Snapshot

/-- All names, keys and values of a snapshot are legible. -/
inductive Legible : Snapshot → Prop
  | node {kind : Kind} {name : String} {properties : Dict PropertyValue} {cs : List Snapshot} :
    LegibleName name → LegibleProperties properties → (∀ c ∈ cs, Legible c) →
    Legible (.node kind name properties cs)

/-! ### Properties -/

/-- A value in an outline. -/
def outlineValue : PropertyValue → List Char
  | .text s => (Text.quote s).toList
  | .number x => (Decimal.render .plain x).toList

theorem toList_outlineProperty (key : String) (v : PropertyValue) :
    (outlineProperty key v).toList = key.toList ++ ':' :: ' ' :: outlineValue v := by
  cases v <;> simp [outlineProperty, outlineValue]

/-- What can follow a property: another one, or the end of all. -/
def EndsProperty (cs : List Char) : Prop := ∃ c ∈ [',', '}'], cs.head? = some c

/-- A number does not begin like a text. -/
theorem quote_not_head_render {x : Float} {xs : List Char} (hxs : EndsProperty xs) :
    ((Decimal.render .plain x).toList ++ xs).head? ≠ some '"' := by
  have hquote : '"' ∉ (Decimal.render .plain x).toList :=
    Decimal.not_mem_render (by decide) (by decide) x
  cases hrender : (Decimal.render .plain x).toList with
  | nil =>
    obtain ⟨c, hc, hhead⟩ := hxs
    rw [List.nil_append, hhead]
    rintro ⟨⟩
    exact absurd hc (by decide)
  | cons c cs =>
    rw [hrender] at hquote
    intro h
    obtain rfl : c = '"' := Option.some.inj h
    exact hquote List.mem_cons_self

theorem delimited_outlineValue : Delimited PropertyValue.Legible EndsProperty outlineValue := by
  intro v w xs ys hv hw hxs hys h
  cases v with
  | text s =>
    cases w with
    | text t =>
      obtain ⟨rfl, hrest⟩ := Text.delimited_quote trivial trivial trivial trivial h
      exact ⟨rfl, hrest⟩
    | number y =>
      -- a text begins with a quote, which no number has
      refine absurd (congrArg List.head? h).symm ?_
      have hhead : (outlineValue (.text s) ++ xs).head? = some '"' := by
        simp [outlineValue, Text.quote]
      rw [hhead]
      exact quote_not_head_render hys
  | number x =>
    cases w with
    | text t =>
      refine absurd (congrArg List.head? h) ?_
      have hhead : (outlineValue (.text t) ++ ys).head? = some '"' := by
        simp [outlineValue, Text.quote]
      rw [hhead]
      exact quote_not_head_render hxs
    | number y =>
      -- a comma or a brace is no part of a number
      have hstops (z : Float) : ∀ c ∈ [',', '}'], c ∉ (Decimal.render .plain z).toList := by
        simp only [List.forall_mem_cons]
        exact ⟨Decimal.not_mem_render (by decide) (by decide) z,
          Decimal.not_mem_render (by decide) (by decide) z, List.forall_mem_nil _⟩
      obtain ⟨htext, hrest⟩ := delimited_before _ (hstops x) (hstops y) hxs hys h
      exact ⟨congrArg _ (Decimal.render_injective hv.1 hw.1 (String.toList_inj.1 htext)), hrest⟩

/-- Properties can be cut off from each other. -/
theorem delimited_outlineProperty :
    Delimited (fun e : String × PropertyValue => LegibleKey e.1 ∧ e.2.Legible) EndsProperty
      fun e => (outlineProperty e.1 e.2).toList := by
  intro e f xs ys he hf hxs hys h
  have hkey {key : String} (hlegible : LegibleKey key) : ∀ c ∈ [':'], c ∉ key.toList := by
    simpa using hlegible.1
  simp only [toList_outlineProperty, List.append_assoc, List.cons_append] at h
  obtain ⟨hsame, hrest⟩ := delimited_before _ (hkey he.1) (hkey hf.1) (by simp) (by simp) h
  obtain ⟨hvalue, htail⟩ :=
    delimited_outlineValue he.2 hf.2 hxs hys (List.cons.inj (List.cons.inj hrest).2).2
  exact ⟨Prod.ext (String.toList_inj.1 hsame) hvalue, htail⟩

theorem intercalate_cons (sep : List Char) (l : List Char) (ls : List (List Char)) :
    sep.intercalate (l :: ls) = l ++ ls.flatMap (sep ++ ·) := by
  induction ls generalizing l with
  | nil => simp
  | cons m ms ih => rw [List.intercalate_cons_cons, ih m]; simp

/-- The properties after the first one, each after a comma. -/
def outlineOthers (es : List (String × PropertyValue)) : List Char :=
  es.flatMap fun e => ',' :: ' ' :: (outlineProperty e.1 e.2).toList

/-- The properties of a node in an outline. -/
def outlineEntries : List (String × PropertyValue) → List Char
  | [] => []
  | e :: es => ' ' :: '{' :: (outlineProperty e.1 e.2).toList ++ outlineOthers es ++ ['}']

theorem toList_outlineProperties (d : Dict PropertyValue) :
    (outlineProperties d).toList = outlineEntries d.entries := by
  unfold outlineProperties Dict.isEmpty
  cases d.entries with
  | nil => rfl
  | cons e es =>
    simp [outlineEntries, outlineOthers, String.toList_append, String.toList_intercalate,
      intercalate_cons, List.flatMap_map, Function.comp_def]

theorem endsProperty_outlineOthers (es : List (String × PropertyValue)) (zs : List Char) :
    EndsProperty (outlineOthers es ++ '}' :: zs) := by
  cases es with
  | nil => exact ⟨'}', by decide, rfl⟩
  | cons e es => exact ⟨',', by decide, rfl⟩

theorem delimited_outlineOthers :
    Delimited (fun es => ∀ e ∈ es, LegibleKey e.1 ∧ e.2.Legible) (fun xs => xs.head? = some '}')
      outlineOthers := by
  have hone : Delimited (fun e : String × PropertyValue => LegibleKey e.1 ∧ e.2.Legible)
      EndsProperty fun e => ',' :: ' ' :: (outlineProperty e.1 e.2).toList := by
    intro e f xs ys he hf hxs hys h
    exact delimited_outlineProperty he hf hxs hys (List.cons.inj (List.cons.inj h).2).2
  refine hone.flatMap ?_ ?_ ?_
  · exact fun _ hxs => ⟨'}', by decide, hxs⟩
  · exact fun _ _ _ => ⟨',', by decide, rfl⟩
  · exact fun _ _ _ => nofun

/-- All properties of a node can be cut off from the end of its line. -/
theorem delimited_outlineEntries :
    Delimited (fun es => ∀ e ∈ es, LegibleKey e.1 ∧ e.2.Legible) (fun xs => xs.head? = some '\n')
      outlineEntries := by
  intro es fs xs ys hes hfs hxs hys h
  cases es with
  | nil =>
    cases fs with
    | nil => exact ⟨rfl, h⟩
    | cons f fs =>
      obtain rfl : xs = outlineEntries (f :: fs) ++ ys := h
      exact absurd hxs (by simp [outlineEntries])
  | cons e es =>
    obtain ⟨he, hmore⟩ := List.forall_mem_cons.1 hes
    cases fs with
    | nil =>
      obtain rfl : outlineEntries (e :: es) ++ xs = ys := h
      exact absurd hys (by simp [outlineEntries])
    | cons f fs =>
      obtain ⟨hf, hmore'⟩ := List.forall_mem_cons.1 hfs
      simp only [outlineEntries, List.cons_append, List.append_assoc, List.cons.injEq, true_and,
        List.nil_append] at h
      obtain ⟨rfl, hothers⟩ := delimited_outlineProperty he hf (endsProperty_outlineOthers es xs)
        (endsProperty_outlineOthers fs ys) h
      obtain ⟨rfl, htail⟩ := delimited_outlineOthers hmore hmore' rfl rfl hothers
      exact ⟨rfl, (List.cons.inj htail).2⟩

theorem delimited_outlineProperties :
    Delimited LegibleProperties (fun xs => xs.head? = some '\n')
      fun d => (outlineProperties d).toList := by
  intro d d' xs ys hd hd' hxs hys h
  simp only [toList_outlineProperties] at h
  obtain ⟨hentries, hrest⟩ := delimited_outlineEntries hd hd' hxs hys h
  exact ⟨Dict.eq_of_entries hentries, hrest⟩

/-! ### Lines -/

/-- The line of a node without the blanks before it and the end after it. -/
def label (l : Kind × String × Dict PropertyValue) : List Char :=
  l.1.name.toList ++ ' ' :: l.2.1.toList ++ (outlineProperties l.2.2).toList

theorem toList_outlineLine (depth : Nat) (kind : Kind) (name : String)
    (properties : Dict PropertyValue) :
    (outlineLine depth kind name properties).toList =
      List.replicate (2 * depth) ' ' ++ label (kind, name, properties) ++ ['\n'] := by
  simp [outlineLine, label, String.toList_append]

/-- The blanks before a line tell its depth. -/
theorem delimited_blanks :
    Delimited (fun _ => True) (fun xs => xs.head? ≠ some ' ') fun n => List.replicate (2 * n) ' ' := by
  intro n m xs ys _ _ hxs hys h
  have hblanks (n : Nat) : ∀ c ∈ List.replicate (2 * n) ' ', decide (c = ' ') = true :=
    fun c hc => decide_eq_true (List.eq_of_mem_replicate hc)
  have hends {zs : List Char} (hzs : zs.head? ≠ some ' ') :
      ∀ c ∈ zs.head?, decide (c = ' ') = false := by
    intro c hc
    refine decide_eq_false ?_
    rintro rfl
    exact hzs hc
  obtain ⟨hsame, hrest⟩ := delimited_until _ (hblanks n) (hblanks m) (hends hxs) (hends hys) h
  have hlength := congrArg List.length hsame
  rw [List.length_replicate, List.length_replicate] at hlength
  exact ⟨by omega, hrest⟩

/-- A kind ends with the blank after it. -/
theorem delimited_kind :
    Delimited (fun _ => True) (fun xs => xs.head? = some ' ') fun kind : Kind => kind.name.toList := by
  intro kind kind' xs ys _ _ hxs hys h
  have hblank (k : Kind) : ∀ c ∈ [' '], c ∉ k.name.toList := by
    rw [List.forall_mem_singleton]
    cases k <;> decide
  obtain ⟨hsame, hrest⟩ := delimited_before _ (hblank kind) (hblank kind')
    ⟨' ', by decide, hxs⟩ ⟨' ', by decide, hys⟩ h
  exact ⟨Kind.name_injective (String.toList_inj.1 hsame), hrest⟩

/-- A name ends with the blank before the properties or with the line. -/
theorem delimited_name :
    Delimited LegibleName (fun xs => ∃ c ∈ [' ', '\n'], xs.head? = some c) String.toList := by
  intro name name' xs ys hname hname' hxs hys h
  have hstops {n : String} (hn : LegibleName n) : ∀ c ∈ [' ', '\n'], c ∉ n.toList := by
    simpa using And.intro hn.1 hn.2
  obtain ⟨hsame, hrest⟩ := delimited_before _ (hstops hname) (hstops hname') hxs hys h
  exact ⟨String.toList_inj.1 hsame, hrest⟩

/-- A line can be cut off from what follows it. -/
theorem delimited_outlineLine :
    Delimited
      (fun l : Nat × Kind × String × Dict PropertyValue =>
        LegibleName l.2.2.1 ∧ LegibleProperties l.2.2.2)
      (fun _ => True) fun l => (outlineLine l.1 l.2.1 l.2.2.1 l.2.2.2).toList := by
  rintro ⟨depth, kind, name, properties⟩ ⟨depth', kind', name', properties'⟩ xs ys
    ⟨hname, hproperties⟩ ⟨hname', hproperties'⟩ - - h
  have hkind (k : Kind) (cs : List Char) : (k.name.toList ++ cs).head? ≠ some ' ' := by
    cases k <;> simp [Kind.name]
  have hends (d : Dict PropertyValue) (zs : List Char) :
      ∃ c ∈ [' ', '\n'], ((outlineProperties d).toList ++ '\n' :: zs).head? = some c := by
    rw [toList_outlineProperties]
    cases d.entries with
    | nil => exact ⟨'\n', by decide, rfl⟩
    | cons e es => exact ⟨' ', by decide, rfl⟩
  simp only [toList_outlineLine, label, List.append_assoc, List.cons_append, List.nil_append] at h
  -- depth, kind, name and properties are cut off one after the other
  obtain ⟨rfl, hline⟩ := delimited_blanks trivial trivial (hkind kind _) (hkind kind' _) h
  obtain ⟨rfl, hnamed⟩ := delimited_kind trivial trivial rfl rfl hline
  obtain ⟨rfl, hrest⟩ := delimited_name hname hname' (hends properties xs) (hends properties' ys)
    (List.cons.inj hnamed).2
  obtain ⟨rfl, hend⟩ := delimited_outlineProperties hproperties hproperties' rfl rfl hrest
  exact ⟨rfl, (List.cons.inj hend).2⟩

theorem newline_not_mem_outlineProperty {e : String × PropertyValue} (h : LegibleKey e.1) :
    '\n' ∉ (outlineProperty e.1 e.2).toList := by
  have hvalue : '\n' ∉ outlineValue e.2 := by
    cases e.2 with
    | text s => exact Text.newline_not_mem_quote s
    | number x => exact Decimal.not_mem_render (by decide) (by decide) x
  simp [toList_outlineProperty, h.2, hvalue]

theorem newline_not_mem_outlineEntries {es : List (String × PropertyValue)}
    (h : ∀ e ∈ es, LegibleKey e.1) : '\n' ∉ outlineEntries es := by
  cases es with
  | nil => exact List.not_mem_nil
  | cons e es =>
    obtain ⟨he, hes⟩ := List.forall_mem_cons.1 h
    have hothers : '\n' ∉ outlineOthers es := by
      intro hmem
      obtain ⟨f, hf, hline⟩ := List.mem_flatMap.1 hmem
      have hproperty := newline_not_mem_outlineProperty (e := f) (hes f hf)
      simp [hproperty] at hline
    simp [outlineEntries, newline_not_mem_outlineProperty he, hothers]

theorem newline_not_mem_label {kind : Kind} {name : String} {properties : Dict PropertyValue}
    (hname : LegibleName name) (hproperties : LegibleProperties properties) :
    '\n' ∉ label (kind, name, properties) := by
  have hkind : '\n' ∉ kind.name.toList := by
    cases kind <;> decide
  have htail : '\n' ∉ (outlineProperties properties).toList := by
    rw [toList_outlineProperties]
    exact newline_not_mem_outlineEntries fun e he => (hproperties e he).1
  simp [label, hkind, hname.2, htail]

/-! ### Outlines -/

theorem toList_outline (s : Snapshot) :
    s.outline.toList =
      (s.levels 0).flatMap fun l => (outlineLine l.1 l.2.1 l.2.2.1 l.2.2.2).toList := by
  rw [outline, String.toList_join, List.flatMap_map]

variable {s t : Snapshot}

mutual

/-- The lines of a legible snapshot are legible. -/
theorem legible_levels (s : Snapshot) (h : s.Legible) (depth : Nat) :
    ∀ l ∈ s.levels depth, LegibleName l.2.2.1 ∧ LegibleProperties l.2.2.2 := by
  obtain ⟨kind, name, properties, cs⟩ := s
  obtain ⟨hname, hproperties, hcs⟩ := h
  rw [levels, List.forall_mem_cons]
  exact ⟨⟨hname, hproperties⟩, legible_levelsAll cs hcs (depth + 1)⟩

theorem legible_levelsAll (cs : List Snapshot) (h : ∀ c ∈ cs, c.Legible) (depth : Nat) :
    ∀ l ∈ levelsAll depth cs, LegibleName l.2.2.1 ∧ LegibleProperties l.2.2.2 := by
  cases cs with
  | nil =>
    rw [levelsAll]
    exact fun l hl => absurd hl List.not_mem_nil
  | cons c cs =>
    obtain ⟨hc, hcs⟩ := List.forall_mem_cons.1 h
    rw [levelsAll]
    exact List.forall_mem_append.2 ⟨legible_levels c hc depth, legible_levelsAll cs hcs depth⟩

end

/-- Legible snapshots with the same outline are equal. -/
theorem Legible.eq_of_outline (hs : s.Legible) (ht : t.Legible) (h : s.outline = t.outline) :
    s = t := by
  have hlines := delimited_outlineLine.flatMap (R := fun xs => xs = []) (fun _ _ => trivial)
    (fun _ _ _ => trivial) (by simp [toList_outlineLine])
  have htext := congrArg String.toList h
  rw [toList_outline, toList_outline] at htext
  exact levels_injective (hlines (legible_levels s hs 0) (legible_levels t ht 0) rfl rfl
    (congrArg (· ++ []) htext)).1

theorem splitOn_lines {ls : List (List Char)} (h : ∀ l ∈ ls, '\n' ∉ l) :
    (ls.flatMap (· ++ ['\n'])).splitOn '\n' = ls ++ [[]] := by
  induction ls with
  | nil => rfl
  | cons l ls ih =>
    obtain ⟨hl, hls⟩ := List.forall_mem_cons.1 h
    have hline : l.splitOnP (· == '\n') = [l] := by
      refine List.splitOnP_eq_singleton fun c hc => ?_
      rw [beq_eq_false_iff_ne]
      rintro rfl
      exact hl hc
    have hrest := ih hls
    rw [List.splitOn_eq_splitOnP] at hrest ⊢
    rw [List.flatMap_cons, List.append_assoc, List.singleton_append,
      List.splitOnP_append_cons _ _ (by rfl), hline, hrest, List.singleton_append]
    rfl

/-- The lines of an outline are the nodes in preorder, each two blanks further in than its parent. -/
theorem Legible.splitOn_outline (hs : s.Legible) :
    s.outline.toList.splitOn '\n' =
      ((s.visits []).map fun v =>
        List.replicate (2 * v.1.length) ' ' ++ label v.2.root) ++ [[]] := by
  have hlevels := levels_eq_map_visits [] s
  have hlegible := legible_levels s hs 0
  rw [List.length_nil] at hlevels
  have htext : s.outline.toList =
      ((s.levels 0).map fun l =>
        List.replicate (2 * l.1) ' ' ++ label l.2).flatMap (· ++ ['\n']) := by
    rw [toList_outline, List.flatMap_map]
    exact List.flatMap_congr fun l _ => toList_outlineLine ..
  rw [htext, splitOn_lines, hlevels, List.map_map]
  · rfl
  · intro l hl
    obtain ⟨level, hmem, rfl⟩ := List.mem_map.1 hl
    obtain ⟨hname, hproperties⟩ := hlegible level hmem
    simp [newline_not_mem_label hname hproperties]

/-! ### Comparison -/

theorem same_self {v : PropertyValue} (h : v.Legible) : v.same v = true := by
  cases v with
  | number x => exact Float.beq_iff_ne_nan_and_eq.2 ⟨h.1, h.1, .inl rfl⟩
  | text s => exact beq_self_eq_true s

theorem sameProperties_iff {d e : Dict PropertyValue} (hd : LegibleProperties d)
    (he : LegibleProperties e) : sameProperties d e = true ↔ d = e := by
  refine ⟨eq_of_sameProperties hd.unsigned he.unsigned, ?_⟩
  rintro rfl
  have hentries (es : List (String × PropertyValue)) (hes : ∀ e ∈ es, e.2.Legible) :
      ((es.zip es).all fun p => p.1.2.same p.2.2) = true := by
    induction es with
    | nil => rfl
    | cons e es ih =>
      obtain ⟨he, hes⟩ := List.forall_mem_cons.1 hes
      rw [List.zip_cons_cons, List.all_cons, same_self he, ih hes]
      rfl
  rw [sameProperties, beq_self_eq_true, Bool.true_and]
  exact hentries d.entries fun e he => (hd e he).2

mutual

/-- Legible snapshots compare as the same if they are equal, and only then. -/
theorem Legible.same_iff (s t : Snapshot) (hs : s.Legible) (ht : t.Legible) :
    s.same t = true ↔ s = t := by
  obtain ⟨kind, name, properties, cs⟩ := s
  obtain ⟨kind', name', properties', ds⟩ := t
  obtain ⟨-, hproperties, hcs⟩ := hs
  obtain ⟨-, hproperties', hds⟩ := ht
  rw [same]
  simp only [Bool.and_eq_true, decide_eq_true_eq, node.injEq,
    sameProperties_iff hproperties hproperties', sameAll_iff cs ds hcs hds, and_assoc]

theorem sameAll_iff (cs ds : List Snapshot) (hcs : ∀ c ∈ cs, c.Legible)
    (hds : ∀ d ∈ ds, d.Legible) : sameAll cs ds = true ↔ cs = ds := by
  cases cs with
  | nil => cases ds <;> simp [sameAll]
  | cons c cs =>
    cases ds with
    | nil => simp [sameAll]
    | cons d ds =>
      obtain ⟨hc, hcs⟩ := List.forall_mem_cons.1 hcs
      obtain ⟨hd, hds⟩ := List.forall_mem_cons.1 hds
      rw [sameAll, Bool.and_eq_true, Legible.same_iff c d hc hd, sameAll_iff cs ds hcs hds,
        List.cons.injEq]

end

/-- Legible snapshots have the same outline if they compare as the same, and only then. -/
theorem Legible.outline_eq_iff (hs : s.Legible) (ht : t.Legible) :
    s.outline = t.outline ↔ s.same t = true := by
  rw [Legible.same_iff s t hs ht]
  exact ⟨hs.eq_of_outline ht, congrArg outline⟩

end Snapshot

end BehaviorTree
