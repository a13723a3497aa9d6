import BehaviorTree.Registry

namespace BehaviorTree.Registry

/-!
# The library's own leaves by name

Main statement: `lookup?_withBuiltins` — a registry of the library's own leaves makes no others, and
makes each under its own kind and name.
-/

variable {β η : Type} {embed : Builtin → β} {kind : LeafKind} {name : String}
  {make : Factory β η}

/-- Registers leaves of the library one after the other. -/
def registerAll (embed : Builtin → β) (bs : List (LeafKind × String × Builtin))
    (r : Registry β η) : Registry β η :=
  bs.foldl (fun r b => r.modifyKind b.1 (·.insert b.2.1 (.leaf b.1 (embed b.2.2)))) r

theorem ofKind_modifyKind (r : Registry β η) (kind kind' : LeafKind)
    (f : Dict (Factory β η) → Dict (Factory β η)) :
    (r.modifyKind kind f).ofKind kind' =
      if kind = kind' then f (r.ofKind kind) else r.ofKind kind' := by
  cases kind <;> cases kind' <;> rfl

theorem nodes_registerAll (bs : List (LeafKind × String × Builtin)) (r : Registry β η) :
    (registerAll embed bs r).nodes = r.nodes := by
  induction bs generalizing r with
  | nil => rfl
  | cons b bs ih =>
    refine (ih _).trans ?_
    obtain ⟨kind, name, b⟩ := b
    cases kind <;> rfl

/-- What is found in a namespace was registered there, or had been there before. -/
theorem mem_of_registerAll {bs : List (LeafKind × String × Builtin)} {r : Registry β η}
    (h : ((registerAll embed bs r).ofKind kind).get? name = some make) :
    (∃ b, (kind, name, b) ∈ bs ∧ make = .leaf kind (embed b)) ∨
      (r.ofKind kind).get? name = some make := by
  induction bs generalizing r with
  | nil => exact .inr h
  | cons b bs ih =>
    obtain ⟨kind', name', b⟩ := b
    rcases ih h with ⟨b', hmem, hmake⟩ | hbefore
    · exact .inl ⟨b', List.mem_cons_of_mem _ hmem, hmake⟩
    rw [ofKind_modifyKind] at hbefore
    split at hbefore
    · next hkind =>
      subst hkind
      rw [Dict.get?_insert] at hbefore
      split at hbefore
      · next hname =>
        subst hname
        exact .inl ⟨b, List.mem_cons_self, (Option.some.inj hbefore).symm⟩
      · exact .inr hbefore
    · exact .inr hbefore

/-- A registry of the library's own leaves makes no others, and makes each under its own kind and
    name. -/
theorem lookup?_withBuiltins (h : (withBuiltins embed).lookup? kind name = some make) :
    ∃ b, (kind, name, b) ∈ builtins ∧ make = .leaf kind (embed b) := by
  have hnodes : (withBuiltins embed : Registry β η).nodes = .empty := nodes_registerAll builtins {}
  rw [lookup?, hnodes, Dict.get?_empty, Option.or_none] at h
  rcases mem_of_registerAll h with hmem | hbefore
  · exact hmem
  · cases kind <;> cases hbefore

end BehaviorTree.Registry
