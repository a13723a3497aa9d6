import BehaviorTree.Proofs.Registry
import BehaviorTree.Source.Declaration
import Mathlib.Data.List.Induction

namespace BehaviorTree

/-!
# Registering one factory after the other

A registry is filled by calls, of which those with an empty name are refused.  Every factory that a
call stores has a place, which is a namespace and a name in it, and what the calls leave behind is
at every place the factory stored there last.  Leaves are found in the namespace of their kind
first and among the nodes then, whichever of the two was stored first.

* `Registry.get?_run` — what a sequence of calls leaves at every place;
* `Registry.run_eq_of_latest?` — nothing but the last factory at each place matters;
* `Registry.run_resolution` — what the calls leave resolves, contains and lists, which calls are
  refused, and which can be exchanged.
-/

namespace Registry

variable {β η : Type} {kind : LeafKind} {name : String}

/-! ### Places -/

/-- The namespaces of a registry: one for each kind of leaf, and that of the nodes. -/
inductive Namespace where
  | leaves (kind : LeafKind)
  | nodes
deriving DecidableEq, Repr

/-- Where a factory is kept: a namespace, and a name in it. -/
abbrev Place := Namespace × String

/-- The factories of a namespace. -/
def factories (r : Registry β η) : Namespace → Dict (Factory β η)
  | .leaves kind => r.ofKind kind
  | .nodes => r.nodes

/-- The factory at a place. -/
def get? (r : Registry β η) (p : Place) : Option (Factory β η) := (r.factories p.1).get? p.2

/-- Stores a factory at a place, whatever was there. -/
def put (r : Registry β η) (p : Place) (make : Factory β η) : Registry β η :=
  match p.1 with
  | .leaves kind => r.modifyKind kind (·.insert p.2 make)
  | .nodes => { r with nodes := r.nodes.insert p.2 make }

theorem factories_put (r : Registry β η) (p : Place) (make : Factory β η) (space : Namespace) :
    (r.put p make).factories space =
      if space = p.1 then (r.factories space).insert p.2 make else r.factories space := by
  obtain ⟨space', name⟩ := p
  cases space' with
  | leaves kind =>
    cases space with
    | leaves kind' =>
      refine (ofKind_modifyKind r kind kind' _).trans ?_
      by_cases h : kind = kind'
      · subst h
        simp [factories]
      · simp [factories, h, Ne.symm h]
    | nodes => cases kind <;> rfl
  | nodes => cases space <;> simp [put, factories, ofKind]

theorem get?_put (r : Registry β η) (p q : Place) (make : Factory β η) :
    (r.put p make).get? q = if q = p then some make else r.get? q := by
  obtain ⟨space, name⟩ := p
  obtain ⟨space', name'⟩ := q
  unfold get?
  rw [factories_put]
  by_cases h : space' = space
  · rw [if_pos h, Dict.get?_insert, h]
    simp
  · simp [h]

/-- A registry has nothing but the factories at its places. -/
theorem ext_get? {r r' : Registry β η} (h : ∀ p, r.get? p = r'.get? p) : r = r' := by
  have hspace (space : Namespace) : r.factories space = r'.factories space :=
    Dict.ext fun name => h (space, name)
  cases r
  cases r'
  simp only [Registry.mk.injEq]
  exact ⟨hspace (.leaves .action), hspace (.leaves .condition), hspace .nodes⟩

theorem get?_empty (p : Place) : ({} : Registry β η).get? p = none := by
  obtain ⟨space, name⟩ := p
  cases space with
  | leaves kind => cases kind <;> rfl
  | nodes => rfl

/-- The library's own leaves with their places. -/
def builtinStores (embed : Builtin → β) : List (Place × Factory β η) :=
  builtins.map fun b => ((.leaves b.1, b.2.1), .leaf b.1 (embed b.2.2))

/-- Stores factories one after the other. -/
def putAll (r : Registry β η) (es : List (Place × Factory β η)) : Registry β η :=
  es.foldl (fun r e => r.put e.1 e.2) r

theorem registerBuiltins_eq_putAll (embed : Builtin → β) (r : Registry β η) :
    r.registerBuiltins embed = r.putAll (builtinStores embed) := by
  rw [putAll, builtinStores, List.foldl_map]
  rfl

/-- Of several factories at one place the last one is left. -/
theorem get?_putAll (r : Registry β η) (es : List (Place × Factory β η)) (p : Place) :
    (r.putAll es).get? p = (es.reverse.lookup p).or (r.get? p) := by
  induction es using List.reverseRecOn with
  | nil => rfl
  | append_singleton es e ih =>
    have hlast : r.putAll (es ++ [e]) = (r.putAll es).put e.1 e.2 := by
      rw [putAll, List.foldl_append]
      rfl
    rw [hlast, get?_put, ih, List.reverse_concat, List.lookup_cons]
    by_cases h : p = e.1
    · rw [if_pos h, beq_iff_eq.2 h, Option.some_or]
    · rw [if_neg h, beq_eq_false_iff_ne.2 h]

/-! ### Calls -/

/-- A call that registers factories. -/
inductive Call (β η : Type) where
  /-- Registers a factory under a name of a leaf. -/
  | register (kind : LeafKind) (name : String) (make : Factory β η)
  /-- Registers fresh leaves of one behaviour. -/
  | registerLeaf (kind : LeafKind) (name : String) (leaf : β)
  /-- Registers a factory of nodes of any kind. -/
  | registerNode (name : String) (make : Factory β η)
  /-- Registers the library's own leaves. -/
  | registerBuiltins

/-- The name that a call registers; the library's own leaves have theirs. -/
def Call.name? : Call β η → Option String
  | .register _ name _ | .registerLeaf _ name _ | .registerNode name _ => some name
  | .registerBuiltins => none

section

variable (embed : Builtin → β)

/-- Makes a call, which gives a registry and tells of replaced factories, or is refused. -/
def perform (r : Registry β η) : Call β η → Except RegistryError (Registry β η × List Event)
  | .register kind name make => r.register kind name make
  | .registerLeaf kind name leaf => r.register kind name (.leaf kind leaf)
  | .registerNode name make => r.registerNode name make
  | .registerBuiltins => .ok (r.registerBuiltins embed, [])

/-- The registry after a call; one that is refused leaves it as it is. -/
def after (r : Registry β η) (c : Call β η) : Registry β η :=
  match r.perform embed c with
  | .ok (r, _) => r
  | .error _ => r

/-- A new registry after calls. -/
def run (calls : List (Call β η)) : Registry β η := calls.foldl (after embed) {}

/-- What a call stores, and where: nothing under an empty name. -/
def Call.stores : Call β η → List (Place × Factory β η)
  | .register kind name make => if name = "" then [] else [((.leaves kind, name), make)]
  | .registerLeaf kind name leaf =>
    if name = "" then [] else [((.leaves kind, name), .leaf kind leaf)]
  | .registerNode name make => if name = "" then [] else [((.nodes, name), make)]
  | .registerBuiltins => builtinStores embed

/-- The factory that calls stored last at a place. -/
def latest? (calls : List (Call β η)) (p : Place) : Option (Factory β η) :=
  (calls.flatMap (Call.stores embed)).reverse.lookup p

/-- Whether no place is stored at by both of two calls. -/
def Call.Apart (c c' : Call β η) : Prop :=
  ((c.stores embed).map Prod.fst).Disjoint ((c'.stores embed).map Prod.fst)

variable {embed}

/-- Registering leaves is refused under the empty name only, and stores the factory otherwise. -/
theorem register_eq (r : Registry β η) (kind : LeafKind) (name : String) (make : Factory β η) :
    ∃ told, r.register kind name make =
      if name = "" then .error .emptyName else .ok (r.put (.leaves kind, name) make, told) := by
  unfold register
  simp only [String.isEmpty_iff]
  exact ⟨_, rfl⟩

/-- Registering nodes is refused under the empty name only, and stores the factory otherwise. -/
theorem registerNode_eq (r : Registry β η) (name : String) (make : Factory β η) :
    ∃ told, r.registerNode name make =
      if name = "" then .error .emptyName else .ok (r.put (.nodes, name) make, told) := by
  unfold registerNode
  simp only [String.isEmpty_iff]
  exact ⟨_, rfl⟩

/-- A call is refused under the empty name only, and stores all its factories otherwise. -/
theorem perform_eq (embed : Builtin → β) (r : Registry β η) (c : Call β η) :
    ∃ told, r.perform embed c =
      if c.name? = some "" then .error .emptyName else .ok (r.putAll (c.stores embed), told) := by
  cases c with
  | register kind name make =>
    obtain ⟨told, h⟩ := register_eq r kind name make
    refine ⟨told, h.trans ?_⟩
    by_cases hname : name = "" <;> simp [Call.name?, Call.stores, putAll, hname]
  | registerLeaf kind name leaf =>
    obtain ⟨told, h⟩ := register_eq r kind name (.leaf kind leaf)
    refine ⟨told, h.trans ?_⟩
    by_cases hname : name = "" <;> simp [Call.name?, Call.stores, putAll, hname]
  | registerNode name make =>
    obtain ⟨told, h⟩ := registerNode_eq r name make
    refine ⟨told, h.trans ?_⟩
    by_cases hname : name = "" <;> simp [Call.name?, Call.stores, putAll, hname]
  | registerBuiltins =>
    refine ⟨[], ?_⟩
    rw [if_neg (by simp [Call.name?]), Call.stores, ← registerBuiltins_eq_putAll]
    rfl

/-- A call with the empty name stores nothing. -/
theorem Call.stores_eq_nil {c : Call β η} (h : c.name? = some "") : c.stores embed = [] := by
  cases c <;> simp_all [Call.name?, Call.stores]

/-- After a call, whether it was refused or not, the registry has what the call stores. -/
theorem after_eq (r : Registry β η) (c : Call β η) :
    r.after embed c = r.putAll (c.stores embed) := by
  obtain ⟨told, h⟩ := perform_eq embed r c
  rw [after, h]
  by_cases hname : c.name? = some ""
  · rw [if_pos hname, Call.stores_eq_nil hname]
    rfl
  · rw [if_neg hname]

theorem run_eq_putAll (calls : List (Call β η)) :
    run embed calls = putAll {} (calls.flatMap (Call.stores embed)) := by
  rw [run, putAll, List.foldl_flatMap]
  congr 1
  funext r c
  exact after_eq r c

/-- At every place there is what was stored there last. -/
theorem get?_run (calls : List (Call β η)) (p : Place) :
    (run embed calls).get? p = latest? embed calls p := by
  rw [run_eq_putAll, get?_putAll, get?_empty, Option.or_none, latest?]

/-- Nothing but the last factory at each place matters. -/
theorem run_eq_of_latest? {calls calls' : List (Call β η)}
    (h : ∀ p, latest? embed calls p = latest? embed calls' p) :
    run embed calls = run embed calls' := by
  apply ext_get?
  intro p
  rw [get?_run, get?_run, h]

theorem latest?_append (calls calls' : List (Call β η)) (p : Place) :
    latest? embed (calls ++ calls') p = (latest? embed calls' p).or (latest? embed calls p) := by
  rw [latest?, List.flatMap_append, List.reverse_append, List.lookup_append]
  rfl

/-- What is found among entries is found under one of their keys. -/
theorem mem_of_lookup {p : Place} {make : Factory β η} {es : List (Place × Factory β η)}
    (h : es.reverse.lookup p = some make) : p ∈ es.map Prod.fst := by
  obtain ⟨l, l', hes, -⟩ := List.lookup_eq_some_iff.1 h
  have hmem : (p, make) ∈ es := by
    rw [← List.mem_reverse, hes]
    simp
  exact List.mem_map_of_mem (f := Prod.fst) hmem

/-- Two calls that store at no common place can be exchanged. -/
theorem latest?_swap {c c' : Call β η} (h : c.Apart embed c') (p : Place) :
    latest? embed [c, c'] p = latest? embed [c', c] p := by
  have hpair (c c' : Call β η) :
      latest? embed [c, c'] p = (latest? embed [c'] p).or (latest? embed [c] p) :=
    latest?_append [c] [c'] p
  rw [hpair, hpair]
  cases hc : latest? embed [c] p with
  | none => simp
  | some make =>
    cases hc' : latest? embed [c'] p with
    | none => simp
    | some make' =>
      simp only [latest?, List.flatMap_singleton] at hc hc'
      exact absurd (mem_of_lookup hc') (h (mem_of_lookup hc))

end

/-! ### Resolution -/

variable [Behavior β η]

/-- The node of a declaration, made from what the factory made. -/
def furnish (d : Source.Declaration β) (made : Node β × Workshop η) (s : Source.Site η) :
    Node β × Source.Site η :=
  let named := made.1.setName (Source.displayName d.word d.name)
  let (n, host) := named.setProperties d.properties made.2.host
  Source.addChildren d.line n { s with shop := { made.2 with host } } d.children

/-- A declared leaf is furnished from what its factory makes, or reported when there is none. -/
theorem build_leaf (r : Registry β η) {d : Source.Declaration β} (h : d.word = .leaf kind)
    (s : Source.Site η) :
    d.build r s =
      match r.lookup? kind d.name with
      | some make => (furnish d (make s.shop) s).map some id
      | none => (none, s.report
          { fault := .unregistered kind d.name, line := some d.line, node := some d.name }) := by
  unfold Source.Declaration.build furnish
  rw [h, Source.factory]
  cases r.lookup? kind d.name <;> rfl

/-- What a registry answers when every place holds the factory that `stored` gives for it. -/
structure Resolves (r : Registry β η) (stored : Registry.Place → Option (Factory β η)) : Prop where
  /-- A leaf is made by the factory of its own namespace, or else by that among the nodes. -/
  lookup (kind : LeafKind) (name : String) :
    r.lookup? kind name = (stored (.leaves kind, name)).or (stored (.nodes, name))
  /-- A leaf that a file declares is made by the same factory, and reported if there is none. -/
  declared {d : Source.Declaration β} {kind : LeafKind} (h : d.word = .leaf kind)
    (s : Source.Site η) :
    d.build r s =
      match (stored (.leaves kind, d.name)).or (stored (.nodes, d.name)) with
      | some make => (furnish d (make s.shop) s).map some id
      | none => (none, s.report
          { fault := .unregistered kind d.name, line := some d.line, node := some d.name })
  /-- A leaf is known exactly if it is made. -/
  contains (kind : LeafKind) (name : String) :
    r.contains kind name = (r.lookup? kind name).isSome
  /-- The names of a namespace are those under which something was stored there. -/
  mem_names (kind : LeafKind) (name : String) :
    name ∈ r.names kind ↔ (stored (.leaves kind, name)).isSome
  mem_nodeNames (name : String) : name ∈ r.nodeNames ↔ (stored (.nodes, name)).isSome
  names_ascending (kind : LeafKind) : (r.names kind).Pairwise (· < ·)
  nodeNames_ascending : r.nodeNames.Pairwise (· < ·)

/-- A registry answers from what is at its places. -/
theorem resolves_of_get? {r : Registry β η} {stored : Registry.Place → Option (Factory β η)}
    (h : ∀ p, r.get? p = stored p) : r.Resolves stored where
  lookup kind name := by
    rw [← h, ← h]
    rfl
  declared {d kind} hword s := by
    rw [build_leaf r hword, ← h, ← h]
    rfl
  contains kind name := by
    rw [lookup?, Option.isSome_or]
    rfl
  mem_names kind name := by
    rw [← h]
    exact Dict.mem_keys
  mem_nodeNames name := by
    rw [← h]
    exact Dict.mem_keys
  names_ascending kind := (r.ofKind kind).keys_ascending
  nodeNames_ascending := r.nodes.keys_ascending

/-- After any calls on a new registry a leaf is resolved to the factory stored last under its name in
    its own namespace, or else to the one stored last among the nodes.  Exactly the calls with an
    empty name are refused, and they change nothing.  Two calls in a row that store at different
    places leave the same registry in either order. -/
theorem run_resolution (embed : Builtin → β) (calls : List (Call β η)) :
    (run embed calls).Resolves (latest? embed calls) ∧
      (∀ before c after, calls = before ++ c :: after →
        ((run embed before).perform embed c = .error .emptyName ↔ c.name? = some "") ∧
        (c.name? = some "" → run embed calls = run embed (before ++ after))) ∧
      (∀ before c c' after, calls = before ++ c :: c' :: after → c.Apart embed c' →
        run embed calls = run embed (before ++ c' :: c :: after)) := by
  refine ⟨resolves_of_get? (get?_run calls), ?refusals, ?exchange⟩
  case refusals =>
    rintro before c after rfl
    constructor
    · obtain ⟨told, hperform⟩ := perform_eq embed (run embed before) c
      rw [hperform]
      by_cases hname : c.name? = some "" <;> simp [hname]
    · intro hname
      apply run_eq_of_latest?
      intro p
      simp only [latest?, List.flatMap_append, List.flatMap_cons, Call.stores_eq_nil hname,
        List.nil_append]
  case exchange =>
    rintro before c c' after rfl happart
    apply run_eq_of_latest?
    intro p
    -- what the calls around the two store last at a place is the same in both orders
    have hsplit (a b : Call β η) : before ++ a :: b :: after = before ++ ([a, b] ++ after) := rfl
    rw [hsplit, hsplit, latest?_append, latest?_append, latest?_append, latest?_append,
      latest?_swap happart]

/-- Registering the library's own leaves undoes an earlier `Log` among the actions, but not one among
    the nodes, which is then used for conditions. -/
theorem log_resolution :
    let calls : List (Call Builtin Unit) :=
      [.registerLeaf .action "Log" .write, .registerNode "Log" (.leaf .condition .present),
        .registerBuiltins, .registerLeaf .action "" .equal]
    (run id calls).lookup? .action "Log" = some (.leaf .action .report) ∧
      (run id calls).lookup? .condition "Log" = some (.leaf .condition .present) ∧
      run id calls = run id (calls.take 3) ∧
      run id calls =
        run id [.registerNode "Log" (.leaf .condition .present),
          .registerLeaf .action "Log" .write, .registerBuiltins, .registerLeaf .action "" .equal] := by
  intro calls
  obtain ⟨hresolves, hrefused, hexchange⟩ := run_resolution (id : Builtin → Builtin) calls
  refine ⟨hresolves.lookup .action "Log", hresolves.lookup .condition "Log", ?_, ?_⟩
  · exact (hrefused (calls.take 3) _ [] rfl).2 rfl
  · refine hexchange [] _ _ _ rfl ?_
    intro p hp hp'
    simp only [Call.stores, reduceIte, String.reduceEq, List.map_cons, List.map_nil,
      List.mem_singleton] at hp hp'
    exact absurd (hp.symm.trans hp') (by decide)

end Registry
end BehaviorTree
