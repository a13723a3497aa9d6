import BehaviorTree.Proofs.Snapshot.Outline
import BehaviorTree.Proofs.Source.Behavior

namespace BehaviorTree.Source

/-!
# Outlines of trees that are read

The names and the keys of a tree that is read are words, and its numbers are none of the NaNs, so its
outline can be read back.

* `legible_of_grown`, `legible_of_read` — the snapshot of a tree that is read is legible;
* `outline_of_read` — two trees that are read have the same outline exactly if they have the same
  snapshot, and the lines of an outline are the nodes of the tree in preorder.
-/

variable {β η : Type}

/-! ### Names, keys and values -/

/-- A word has none of the characters that end names and keys. -/
theorem IsWord.legible {w : String} (h : IsWord w.toList) : LegibleName w ∧ LegibleKey w := by
  have hblank := h.not_isBlank
  have hspace : ' ' ∉ w.toList := fun hmem => absurd (hblank _ hmem) (by decide)
  have hnewline : '\n' ∉ w.toList := fun hmem => absurd (hblank _ hmem) (by decide)
  have hcolon : ':' ∉ w.toList := by
    intro hmem
    cases hw : w.toList with
    | nil =>
      rw [hw] at hmem
      exact List.not_mem_nil hmem
    | cons c cs =>
      rw [hw] at h hmem
      obtain ⟨hc, hcs⟩ := isWord_cons_iff.1 h
      rcases List.mem_cons.1 hmem with rfl | hmem
      · exact absurd hc (by decide)
      · exact absurd (hcs _ hmem) (by decide)
  exact ⟨⟨hspace, hnewline⟩, hcolon, hnewline⟩

theorem legibleName_displayName (word : NodeWord) {name : String} (h : LegibleName name) :
    LegibleName (displayName word name) := by
  cases word with
  | inner kind => exact h
  | leaf kind =>
    have hkind : ' ' ∉ kind.name.toList ∧ '\n' ∉ kind.name.toList := by
      cases kind <;> decide
    unfold LegibleName displayName
    simp [String.toList_append, hkind, h.1, h.2]

theorem legible_of_isValue {t : Token} (hvalid : t.Valid) {v : PropertyValue} (h : IsValue t v) :
    v.Legible := by
  obtain ⟨-, s, rfl⟩ | ⟨hkind, -, x, rfl, hx⟩ := h.text_or_number
  · trivial
  · rw [Token.Valid, hkind] at hvalid
    exact ⟨Decimal.ne_nan_of_readFloat? hvalid.2 hx, Decimal.unsigned_of_readFloat? hvalid.2 hx⟩

/-! ### Nodes -/

theorem legible_ofNode_iff {n : Node β} :
    (Snapshot.ofNode n).Legible ↔
      LegibleName n.name ∧ LegibleProperties n.properties ∧
        ∀ c ∈ n.children, (Snapshot.ofNode c).Legible := by
  rw [Snapshot.ofNode_eq, Snapshot.ofNodes_eq_map]
  constructor
  · rintro ⟨hname, hproperties, hcs⟩
    exact ⟨hname, hproperties, fun c hc => hcs _ (List.mem_map_of_mem hc)⟩
  · rintro ⟨hname, hproperties, hcs⟩
    refine .node hname hproperties ?_
    rintro _ hc
    obtain ⟨c, hmem, rfl⟩ := List.mem_map.1 hc
    exact hcs c hmem

/-- Nodes of the library's own kinds start without properties and without children. -/
theorem fresh_of_factory {embed : Builtin → β} {w : NodeWord} {name : String}
    {make : Factory β η} (h : factory (Registry.withBuiltins embed) w name = .ok make)
    (shop : Workshop η) :
    (make shop).1.properties = .empty ∧ (make shop).1.children = [] := by
  cases w with
  | inner kind =>
    obtain rfl := Except.ok.inj h
    exact ⟨rfl, rfl⟩
  | leaf kind =>
    obtain ⟨b, -, rfl⟩ := Registry.lookup?_withBuiltins (factory_leaf_eq_ok_iff.1 h)
    exact ⟨rfl, rfl⟩

theorem legible_addChildren {n : Node β} {cs : List (Node β)} (hn : (Snapshot.ofNode n).Legible)
    (hcs : ∀ c ∈ cs, (Snapshot.ofNode c).Legible) (line : Nat) (s : Site η) :
    (Snapshot.ofNode (addChildren line n s cs).1).Legible := by
  induction cs generalizing n s with
  | nil => exact hn
  | cons c cs ih =>
    obtain ⟨hc, hcs⟩ := List.forall_mem_cons.1 hcs
    unfold addChildren
    cases hroom : n.hasRoom with
    | false =>
      rw [Node.addChild_of_full hroom]
      exact ih hn hcs _
    | true =>
      obtain ⟨m, hadd, -, hname, hproperties, -, hchildren⟩ := Node.addChild_of_hasRoom hroom c
      rw [hadd]
      refine ih ?_ hcs s
      obtain ⟨hown, hvalues, hothers⟩ := legible_ofNode_iff.1 hn
      rw [legible_ofNode_iff, hname, hproperties, hchildren]
      refine ⟨hown, hvalues, List.forall_mem_append.2 ⟨hothers, ?_⟩⟩
      rwa [List.forall_mem_singleton, Snapshot.ofNode_placedUnder]

variable [Behavior β η]

theorem legible_setProperties {ps : List (String × PropertyValue)} {n : Node β}
    (hn : LegibleProperties n.properties) (hps : ∀ p ∈ ps, LegibleKey p.1 ∧ p.2.Legible) (h : η) :
    LegibleProperties (n.setProperties ps h).1.properties := by
  induction ps generalizing n h with
  | nil => exact hn
  | cons p ps ih =>
    obtain ⟨hp, hps⟩ := List.forall_mem_cons.1 hps
    rw [Node.setProperties_cons]
    refine ih ?_ hps _
    rw [Node.properties_setProperty]
    exact hn.insert hp.1 hp.2

/-- A tree that was built from valid tokens over the leaves of the library has a legible snapshot. -/
theorem legible_of_grown {embed : Builtin → β} {ts : List Token} (hvalid : ∀ t ∈ ts, t.Valid)
    {n : Node β} (h : Grown (Registry.withBuiltins embed : Registry β η) ts n) :
    (Snapshot.ofNode n).Legible := by
  have hword {text : String} (h : ∃ t ∈ ts, t.kind = .identifier ∧ t.text = text) :
      IsWord text.toList := by
    obtain ⟨t, ht, hkind, rfl⟩ := h
    have htoken := hvalid t ht
    rw [Token.Valid, hkind] at htoken
    exact htoken.1
  induction h with
  | @build d s n hdrawn _ hbuild ih =>
    unfold Declaration.build at hbuild
    split at hbuild
    · cases hbuild
    · next make hmake =>
      obtain rfl := Option.some.inj hbuild
      obtain ⟨hproperties, hchildren⟩ := fresh_of_factory hmake s.shop
      refine legible_addChildren ?_ ih _ _
      rw [legible_ofNode_iff, Node.setProperties_keeps (f := Node.name) _ _ _ (by simp),
        Node.setProperties_keeps (f := Node.children) _ _ _ (by simp), Node.name_setName,
        Node.children_setName, hchildren]
      refine ⟨legibleName_displayName _ (hword hdrawn.name).legible.1, ?_, List.forall_mem_nil _⟩
      refine legible_setProperties ?_ (fun p hp => ⟨?_, ?_⟩) _
      · rw [Node.properties_setName, hproperties]
        exact List.forall_mem_nil _
      · exact (hword (hdrawn.keys p hp)).legible.2
      · obtain ⟨t, ht, hvalue⟩ := hdrawn.values p hp
        exact legible_of_isValue (hvalid t ht) hvalue

/-- A tree that is read from the text of a file has a legible snapshot. -/
theorem legible_of_read {embed : Builtin → β} {source : String} {shop : Workshop η}
    {root : Node β} (h : (read (Registry.withBuiltins embed) source shop).result = .ok root) :
    (Snapshot.ofNode root).Legible := by
  obtain ⟨m, tree, host, hm, rfl⟩ := grown_of_read h
  have hvalid : ∀ t ∈ scan source, t.Valid := fun t ht => ((valid_scan source).1 t ht).1
  have hkey : LegibleKey "treeName" := ⟨by decide, by decide⟩
  obtain ⟨hname, hproperties, hchildren⟩ := legible_ofNode_iff.1 (legible_of_grown hvalid hm)
  rw [legible_ofNode_iff, Node.name_setProperty, Node.properties_setProperty,
    Node.children_setProperty]
  exact ⟨hname, hproperties.insert hkey trivial, hchildren⟩

/-! ### Outlines -/

/-- Two trees that are read from any files have the same outline exactly if their snapshots compare as
    the same, and then the snapshots agree in all that they hold.  The outline of a tree has as many
    lines as the tree has nodes.  The lines are those of the nodes in preorder, which is the
    lexicographic order of their paths, and each begins with two blanks for each level above the
    node. -/
theorem outline_of_read {η' : Type} [Behavior β η'] {embed : Builtin → β}
    {source source' : String} {shop : Workshop η} {shop' : Workshop η'} {root root' : Node β}
    (hroot : (read (Registry.withBuiltins embed) source shop).result = .ok root)
    (hroot' : (read (Registry.withBuiltins embed) source' shop').result = .ok root') :
    ((Snapshot.ofNode root).outline = (Snapshot.ofNode root').outline ↔
      (Snapshot.ofNode root).same (Snapshot.ofNode root') = true) ∧
    ((Snapshot.ofNode root).same (Snapshot.ofNode root') = true ↔
      Snapshot.ofNode root = Snapshot.ofNode root') ∧
    ∃ nodes : List (List Nat × Snapshot),
      (∀ path s, (path, s) ∈ nodes ↔ (Snapshot.ofNode root).at? path = some s) ∧
      nodes.Pairwise (fun v w => v.1 < w.1) ∧
      nodes.length = (Snapshot.ofNode root).count ∧
      (Snapshot.ofNode root).outline.toList.splitOn '\n' =
        (nodes.map fun v =>
          List.replicate (2 * v.1.length) ' ' ++ Snapshot.label v.2.root) ++ [[]] := by
  have hlegible := legible_of_read hroot
  have hlegible' := legible_of_read hroot'
  refine ⟨hlegible.outline_eq_iff hlegible', Snapshot.Legible.same_iff _ _ hlegible hlegible',
    (Snapshot.ofNode root).visits [], fun path s => Snapshot.mem_visits_iff,
    Snapshot.visits_ascending [] _, ?_, hlegible.splitOn_outline⟩
  rw [← Snapshot.length_levels 0, ← List.length_nil (α := Nat), Snapshot.levels_eq_map_visits [],
    List.length_map]

/-- A value that is overwritten does not show, and neither does a node that is left out. -/
theorem outline_of_shortenedNap :
    (read (Registry.withBuiltins id) briefNap ⟨0, ()⟩).result = .ok (napping 0 [2.0]) ∧
      (read (Registry.withBuiltins id) shortenedNap ⟨7, ()⟩).result = .ok (napping 7 [4.0, 2.0]) ∧
      (Snapshot.ofNode (napping 7 [4.0, 2.0])).outline =
        (Snapshot.ofNode (napping 0 [2.0])).outline := by
  have hsame : (Snapshot.ofNode (napping 7 [4.0, 2.0])).same
      (Snapshot.ofNode (napping 0 [2.0])) = true := by decide
  obtain ⟨hiff, -⟩ := outline_of_read shortenedNap_read.1 briefNap_read
  exact ⟨briefNap_read, shortenedNap_read.1, hiff.2 hsame⟩

example : (Snapshot.ofNode (napping 0 [2.5])).outline =
    "Action Action:Wait \x7bduration: 2.5, treeName: \"Nap\"\x7d\n" := by decide +kernel

end BehaviorTree.Source
