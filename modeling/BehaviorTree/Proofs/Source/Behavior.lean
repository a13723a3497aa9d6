import BehaviorTree.Proofs.Node.Declared
import BehaviorTree.Proofs.Registry
import BehaviorTree.Proofs.Source.Built

namespace BehaviorTree.Source

/-!
# The snapshot of a tree determines its behaviour

Two tree files may differ in their layout, in the order of properties, in properties that are
overwritten and in everything that was reported and left out.  If the trees that are read from them
have the same snapshot, nothing that a runner does tells them apart.

* `declared_of_built` — a tree that is built over the leaves of the library is what it is declared to
  be;
* `snapshot_determines_run` — trees with the same snapshot have the same runs.
-/

variable {η : Type}

theorem declared_of_factory {w : NodeWord} {name : String} {make : Factory Builtin η}
    (h : factory (Registry.withBuiltins id) w name = .ok make) (shop : Workshop η) :
    ((make shop).1.setName (displayName w name)).Declared := by
  cases w with
  | inner kind =>
    obtain rfl := Except.ok.inj h
    exact Node.declared_ofControl shop.next kind _
  | leaf kind =>
    obtain ⟨b, hmem, rfl⟩ := Registry.lookup?_withBuiltins (factory_leaf_eq_ok_iff.1 h)
    exact Node.declared_ofBehavior hmem shop.next

theorem declared_addChildren {n : Node Builtin} {cs : List (Node Builtin)} (hn : n.Declared)
    (hcs : ∀ c ∈ cs, c.Declared) (line : Nat) (s : Site η) :
    (addChildren line n s cs).1.Declared := by
  induction cs generalizing n s with
  | nil => exact hn
  | cons c cs ih =>
    obtain ⟨hc, hcs⟩ := List.forall_mem_cons.1 hcs
    have hnext := hn.addChild hc
    unfold addChildren
    -- the tree is as declared whether it took the child or not
    split <;> next hadd =>
      rw [hadd] at hnext
      exact ih hnext hcs _

/-- A tree that is built over the leaves of the library is what it is declared to be. -/
theorem declared_of_built {n : Node Builtin}
    (h : Built (Registry.withBuiltins id : Registry Builtin η) n) : n.Declared := by
  induction h with
  | @build d s n hproperties _ hbuild ih =>
    unfold Declaration.build at hbuild
    split at hbuild
    · cases hbuild
    · next make hmake =>
      obtain rfl := Option.some.inj hbuild
      have hfresh := declared_of_factory hmake s.shop
      exact declared_addChildren (hfresh.setProperties hproperties _) ih _ _

/-- A tree that is read from the text of a file is what it is declared to be. -/
theorem declared_of_read {source : String} {shop : Workshop η} {root : Node Builtin}
    (h : (read (Registry.withBuiltins id) source shop).result = .ok root) : root.Declared := by
  obtain ⟨m, tree, host, hm, rfl⟩ := built_of_read h
  have htext : (PropertyValue.text tree).Unsigned := trivial
  exact (declared_of_built hm).setProperty "treeName" htext host

/-! ### One pause in two files -/

/-- A pause that was told how long it is, perhaps several times. -/
def napping (i : NodeId) (seconds : List Float) : Node Builtin :=
  let leaf := (Node.ofBehavior i .action .pause).setName "Action:Wait"
  let timed := (leaf.setProperties (seconds.map fun x => ("duration", .number x)) ()).1
  (timed.setProperty "treeName" (.text "Nap") ()).1

/-- The tokens of a file with a pause, in which everything from its block on is open. -/
def napTokens (line : Nat) (body : List Token) : List Token :=
  ⟨.keyword .tree, line, "tree"⟩ :: ⟨.identifier, line, "Nap"⟩ :: ⟨.leftBrace, line, "\x7b"⟩ ::
    ⟨.keyword (.node (.leaf .action)), line, "Action"⟩ :: ⟨.identifier, line, "Wait"⟩ ::
    ⟨.leftBrace, line, "\x7b"⟩ :: body

/-- The pause is read if its block is. -/
theorem readTokens_nap {line : Nat} {body : List Token} {i : NodeId} {seconds : List Float}
    (found : List Diagnostic) (errors : Nat)
    (hbody : (items (Registry.withBuiltins id) ⟨.leaf .action, "Wait", line, [], []⟩ body
        { shop := ⟨i, ()⟩ }).parts =
      (some ⟨.leaf .action, "Wait", line, seconds.map fun x => ("duration", .number x), []⟩,
        [⟨.rightBrace, line, "\x7d"⟩], ⟨⟨i, ()⟩, found, errors⟩)) :
    (readTokens (Registry.withBuiltins id) (napTokens line body) ⟨i, ()⟩).result =
        .ok (napping i seconds) ∧
      (readTokens (Registry.withBuiltins id) (napTokens line body) ⟨i, ()⟩).errors = errors := by
  have hopen : opening (⟨.identifier, line, "Wait"⟩ :: ⟨.leftBrace, line, "\x7b"⟩ :: body) =
      .block "Wait" body := rfl
  have hnode := (node_block (t := ⟨.keyword (.node (.leaf .action)), line, "Action"⟩) rfl
    hopen).trans (congrArg (buildParts (Registry.withBuiltins id)) hbody)
  have hread : readTokens (Registry.withBuiltins id) (napTokens line body) ⟨i, ()⟩ =
      finish "Nap" _ _ :=
    treeBody_some (t := ⟨.keyword (.node (.leaf .action)), line, "Action"⟩) nofun hnode
  rw [hread]
  exact ⟨rfl, rfl⟩

/-- A pause of two seconds. -/
def briefNap : String := "tree Nap \x7b Action Wait \x7b duration: 2 \x7d \x7d"

/-- A pause of four seconds, or of two after all.  What else stands in its block is left out. -/
def shortenedNap : String :=
  "# at noon\ntree Nap \x7b Action Wait \x7b duration: 4 duration: 2.0 Fly up \x7b\x7d \x7d \x7d"

theorem briefNap_read :
    (read (Registry.withBuiltins id) briefNap ⟨0, ()⟩).result = .ok (napping 0 [2.0]) := by
  have hscan : scan briefNap = napTokens 1
      [⟨.identifier, 1, "duration"⟩, ⟨.colon, 1, ":"⟩, ⟨.number, 1, "2"⟩,
        ⟨.rightBrace, 1, "\x7d"⟩, ⟨.rightBrace, 1, "\x7d"⟩] := by cbv
  rw [Source.read, hscan]
  refine (readTokens_nap [] 0 ?_).1
  rw [items_property rfl rfl, items_close rfl]
  rfl

theorem shortenedNap_read :
    (read (Registry.withBuiltins id) shortenedNap ⟨7, ()⟩).result = .ok (napping 7 [4.0, 2.0]) ∧
      (read (Registry.withBuiltins id) shortenedNap ⟨7, ()⟩).errors = 1 := by
  have hscan : scan shortenedNap = napTokens 2
      [⟨.identifier, 2, "duration"⟩, ⟨.colon, 2, ":"⟩, ⟨.number, 2, "4"⟩,
        ⟨.identifier, 2, "duration"⟩, ⟨.colon, 2, ":"⟩, ⟨.number, 2, "2.0"⟩,
        ⟨.identifier, 2, "Fly"⟩, ⟨.identifier, 2, "up"⟩, ⟨.leftBrace, 2, "\x7b"⟩,
        ⟨.rightBrace, 2, "\x7d"⟩, ⟨.rightBrace, 2, "\x7d"⟩, ⟨.rightBrace, 2, "\x7d"⟩] := by cbv
  rw [Source.read, hscan]
  refine readTokens_nap [{ fault := .wordUnknown "Fly", line := some 2 }] 1 ?_
  rw [items_property rfl rfl, items_property rfl rfl, items_child_of_parts rfl (node_unknown rfl),
    items_close rfl]
  rfl

/-! ### Runs -/

/-- The snapshot of a tree determines its behaviour.  Take two sources from which trees are read, with
    whatever was reported and left out, and runners of these trees.  If the trees have the same
    snapshot, the runners give the same answers to all ticks at the same readings of the clock and
    leave the same worlds: the same blackboards and the same records. -/
theorem snapshot_determines_run {θ θ' : Type} {source source' : String} {shop : Workshop θ}
    {shop' : Workshop θ'} {root root' : Node Builtin}
    (hroot : (read (Registry.withBuiltins id) source shop).result = .ok root)
    (hroot' : (read (Registry.withBuiltins id) source' shop').result = .ok root')
    (hsame : (Snapshot.ofNode root).same (Snapshot.ofNode root') = true)
    (w : World η) (beats : List (Float × (World η → World η))) :
    ({ root := root } : Runner Builtin).run w beats =
      ({ root := root' } : Runner Builtin).run w beats := by
  apply Runner.run_eq_of_sameState
  · exact (declared_of_read hroot).sameState (declared_of_read hroot') hsame
  · rfl

/-- A file with a value that is overwritten, and with an error, runs as a plain one. -/
theorem shortenedNap_runs_as_briefNap :
    (read (Registry.withBuiltins id) briefNap ⟨0, ()⟩).result = .ok (napping 0 [2.0]) ∧
      (read (Registry.withBuiltins id) shortenedNap ⟨7, ()⟩).result = .ok (napping 7 [4.0, 2.0]) ∧
      (read (Registry.withBuiltins id) shortenedNap ⟨7, ()⟩).errors = 1 ∧
      (Snapshot.ofNode (napping 0 [2.0])).same (Snapshot.ofNode (napping 7 [4.0, 2.0])) = true ∧
      ({ root := napping 0 [2.0] } : Runner Builtin).run (World.start ())
          [(0.0, fun w => w), (1.5, fun w => w), (2.5, fun w => w)] =
        ({ root := napping 7 [4.0, 2.0] } : Runner Builtin).run (World.start ())
          [(0.0, fun w => w), (1.5, fun w => w), (2.5, fun w => w)] := by
  obtain ⟨hshortened, herrors⟩ := shortenedNap_read
  have hsame : (Snapshot.ofNode (napping 0 [2.0])).same
      (Snapshot.ofNode (napping 7 [4.0, 2.0])) = true := by decide
  exact ⟨briefNap_read, hshortened, herrors, hsame,
    snapshot_determines_run briefNap_read hshortened hsame _ _⟩

end BehaviorTree.Source
