import BehaviorTree.Snapshot.Basic
import Mathlib.Data.List.Lex
import Mathlib.Order.Basic

namespace BehaviorTree.Snapshot

/-!
# The nodes of a snapshot in preorder

A node of a snapshot is where a path of child numbers leads from the root.  `levels` lists the nodes
with their depths in the lexicographic order of their paths, each of them once, and a snapshot can be told
from this list.

* `mem_visits_iff`, `visits_ascending` — what is visited on the way through a snapshot, and in which order;
* `levels_eq_map_visits` — `levels` lists what is visited, with the lengths of the paths;
* `levels_injective` — snapshots with the same list are equal.
-/

/-- The children of the root. -/
def children : Snapshot → List Snapshot
  | .node _ _ _ cs => cs

/-- What the root has of its own. -/
def root : Snapshot → Kind × String × Dict PropertyValue
  | .node kind name properties _ => (kind, name, properties)

/-- The subtree to which a path leads. -/
def at? (s : Snapshot) : List Nat → Option Snapshot
  | [] => some s
  | i :: path => s.children[i]?.bind (·.at? path)

mutual

/-- The subtrees of a snapshot with their paths, where `path` leads to the snapshot. -/
def visits (path : List Nat) : Snapshot → List (List Nat × Snapshot)
  | .node kind name properties cs =>
    (path, .node kind name properties cs) :: visitsAll path 0 cs

/-- The subtrees of the children of a node from the `i`-th on. -/
def visitsAll (path : List Nat) (i : Nat) : List Snapshot → List (List Nat × Snapshot)
  | [] => []
  | c :: cs => c.visits (path ++ [i]) ++ visitsAll path (i + 1) cs

end

/-! ### Paths -/

mutual

theorem mem_visits {path p : List Nat} {t : Snapshot} (s : Snapshot) :
    (p, t) ∈ s.visits path ↔ ∃ q, p = path ++ q ∧ s.at? q = some t := by
  obtain ⟨kind, name, properties, cs⟩ := s
  rw [visits, List.mem_cons, mem_visitsAll cs]
  constructor
  · rintro (h | ⟨j, q, c, hc, hp, ht⟩)
    · obtain ⟨rfl, rfl⟩ := Prod.mk.inj h
      exact ⟨[], (List.append_nil p).symm, rfl⟩
    · rw [Nat.zero_add] at hp
      exact ⟨j :: q, hp, by rw [at?, children, hc]; exact ht⟩
  · rintro ⟨q, rfl, ht⟩
    cases q with
    | nil =>
      rw [at?, Option.some.injEq] at ht
      exact .inl (by rw [List.append_nil, ht])
    | cons j q =>
      obtain ⟨c, hc, ht⟩ := Option.bind_eq_some_iff.1 ht
      exact .inr ⟨j, q, c, hc, by rw [Nat.zero_add], ht⟩

theorem mem_visitsAll {path p : List Nat} {i : Nat} {t : Snapshot} (cs : List Snapshot) :
    (p, t) ∈ visitsAll path i cs ↔
      ∃ j q c, cs[j]? = some c ∧ p = path ++ (i + j) :: q ∧ c.at? q = some t := by
  cases cs with
  | nil => simp [visitsAll]
  | cons c cs =>
    rw [visitsAll, List.mem_append, mem_visits c, mem_visitsAll cs]
    constructor
    · rintro (⟨q, hp, ht⟩ | ⟨j, q, d, hd, hp, ht⟩)
      · exact ⟨0, q, c, rfl, by rw [hp, List.append_assoc]; rfl, ht⟩
      · exact ⟨j + 1, q, d, hd, by rw [hp, Nat.add_right_comm, Nat.add_assoc], ht⟩
    · rintro ⟨j, q, d, hd, hp, ht⟩
      cases j with
      | zero =>
        obtain rfl : c = d := Option.some.inj hd
        exact .inl ⟨q, by rw [hp, List.append_assoc]; rfl, ht⟩
      | succ j => exact .inr ⟨j, q, d, hd, by rw [hp, Nat.add_right_comm, Nat.add_assoc], ht⟩

end

/-- The visits are those of the subtrees, each with its path. -/
theorem mem_visits_iff {s t : Snapshot} {p : List Nat} :
    (p, t) ∈ s.visits [] ↔ s.at? p = some t := by
  rw [mem_visits]
  simp

mutual

theorem visits_ascending (path : List Nat) (s : Snapshot) :
    (s.visits path).Pairwise fun v w => v.1 < w.1 := by
  obtain ⟨kind, name, properties, cs⟩ := s
  rw [visits, List.pairwise_cons]
  refine ⟨?_, visitsAll_ascending path 0 cs⟩
  rintro ⟨p, t⟩ hmem
  obtain ⟨j, q, c, -, rfl, -⟩ := (mem_visitsAll cs).1 hmem
  have hlt : path ++ [] < path ++ (0 + j) :: q := List.append_left_lt (List.nil_lt_cons _ _)
  rwa [List.append_nil] at hlt

theorem visitsAll_ascending (path : List Nat) (i : Nat) (cs : List Snapshot) :
    (visitsAll path i cs).Pairwise fun v w => v.1 < w.1 := by
  cases cs with
  | nil => exact List.Pairwise.nil
  | cons c cs =>
    rw [visitsAll, List.pairwise_append]
    refine ⟨visits_ascending _ c, visitsAll_ascending path (i + 1) cs, ?_⟩
    -- an earlier child has the lower number
    rintro ⟨p, t⟩ hp ⟨p', t'⟩ hp'
    obtain ⟨q, rfl, -⟩ := (mem_visits c).1 hp
    obtain ⟨j, q', d, -, rfl, -⟩ := (mem_visitsAll cs).1 hp'
    rw [List.append_assoc]
    exact List.append_left_lt (List.cons_lt_cons_iff.2 (.inl (by omega)))

end

/-! ### Levels -/

mutual

theorem levels_eq_map_visits (path : List Nat) (s : Snapshot) :
    s.levels path.length = (s.visits path).map fun v => (v.1.length, v.2.root) := by
  obtain ⟨kind, name, properties, cs⟩ := s
  rw [levels, visits, List.map_cons, levelsAll_eq_map_visitsAll path 0 cs]
  rfl

theorem levelsAll_eq_map_visitsAll (path : List Nat) (i : Nat) (cs : List Snapshot) :
    levelsAll (path.length + 1) cs =
      (visitsAll path i cs).map fun v => (v.1.length, v.2.root) := by
  cases cs with
  | nil => rw [levelsAll, visitsAll, List.map_nil]
  | cons c cs =>
    have hlength : (path ++ [i]).length = path.length + 1 := by simp
    rw [levelsAll, visitsAll, List.map_append, ← levels_eq_map_visits (path ++ [i]) c, hlength,
      levelsAll_eq_map_visitsAll path (i + 1) cs]

end

mutual

theorem length_levels (depth : Nat) (s : Snapshot) : (s.levels depth).length = s.count := by
  obtain ⟨kind, name, properties, cs⟩ := s
  rw [levels, count, List.length_cons, length_levelsAll (depth + 1) cs]

theorem length_levelsAll (depth : Nat) (cs : List Snapshot) :
    (levelsAll depth cs).length = countAll cs := by
  cases cs with
  | nil => rw [levelsAll, countAll, List.length_nil]
  | cons c cs =>
    rw [levelsAll, countAll, List.length_append, length_levels depth c, length_levelsAll depth cs]

end

/-- A list of levels begins above a depth, if it is not empty. -/
def BeginsAbove (depth : Nat) (ls : List (Nat × Kind × String × Dict PropertyValue)) : Prop :=
  ∀ l ∈ ls.head?, l.1 < depth

theorem beginsAbove_nil (depth : Nat) : BeginsAbove depth [] := nofun

theorem levels_eq_cons (depth : Nat) (s : Snapshot) :
    s.levels depth = (depth, s.root) :: levelsAll (depth + 1) s.children := by
  obtain ⟨kind, name, properties, cs⟩ := s
  rw [levels]
  rfl

/-- After the levels of some trees come those of the trees beside them, or what is above. -/
theorem BeginsAbove.levelsAll {depth : Nat} {ls : List (Nat × Kind × String × Dict PropertyValue)}
    (h : BeginsAbove depth ls) (cs : List Snapshot) :
    BeginsAbove (depth + 1) (Snapshot.levelsAll depth cs ++ ls) := by
  intro l hl
  cases cs with
  | nil =>
    rw [Snapshot.levelsAll, List.nil_append] at hl
    exact Nat.lt_succ_of_lt (h l hl)
  | cons c cs =>
    rw [Snapshot.levelsAll, levels_eq_cons] at hl
    obtain rfl := Option.mem_some_iff.1 hl
    exact Nat.lt_succ_self depth

mutual

/-- A tree can be told from its levels, whatever follows them above its children. -/
theorem levels_append_inj {depth : Nat} (s t : Snapshot)
    {ls ms : List (Nat × Kind × String × Dict PropertyValue)}
    (hls : BeginsAbove (depth + 1) ls) (hms : BeginsAbove (depth + 1) ms)
    (h : s.levels depth ++ ls = t.levels depth ++ ms) : s = t ∧ ls = ms := by
  obtain ⟨kind, name, properties, cs⟩ := s
  obtain ⟨kind', name', properties', ds⟩ := t
  rw [levels, levels, List.cons_append, List.cons_append, List.cons.injEq] at h
  obtain ⟨hroot, hrest⟩ := h
  obtain ⟨-, rfl, rfl, rfl⟩ := hroot
  -- the levels below the root end where the depth falls back
  obtain ⟨rfl, rfl⟩ := levelsAll_append_inj cs ds hls hms hrest
  exact ⟨rfl, rfl⟩

/-- So can a list of trees, from their levels one after the other. -/
theorem levelsAll_append_inj {depth : Nat} (cs ds : List Snapshot)
    {ls ms : List (Nat × Kind × String × Dict PropertyValue)}
    (hls : BeginsAbove depth ls) (hms : BeginsAbove depth ms)
    (h : levelsAll depth cs ++ ls = levelsAll depth ds ++ ms) : cs = ds ∧ ls = ms := by
  cases cs with
  | nil =>
    cases ds with
    | nil => exact ⟨rfl, by simpa [levelsAll] using h⟩
    | cons d ds =>
      -- what is above cannot be a tree
      rw [levelsAll, levelsAll, List.nil_append, levels_eq_cons] at h
      exact absurd (hls (depth, d.root) (by rw [h]; rfl)) (lt_irrefl depth)
  | cons c cs =>
    cases ds with
    | nil =>
      rw [levelsAll, levelsAll, List.nil_append, levels_eq_cons] at h
      exact absurd (hms (depth, c.root) (by rw [← h]; rfl)) (lt_irrefl depth)
    | cons d ds =>
      rw [levelsAll, levelsAll, List.append_assoc, List.append_assoc] at h
      obtain ⟨rfl, hrest⟩ := levels_append_inj c d (hls.levelsAll cs) (hms.levelsAll ds) h
      obtain ⟨rfl, rfl⟩ := levelsAll_append_inj cs ds hls hms hrest
      exact ⟨rfl, rfl⟩

end

/-- Snapshots with the same levels are equal. -/
theorem levels_injective {depth : Nat} {s t : Snapshot} (h : s.levels depth = t.levels depth) :
    s = t :=
  (levels_append_inj s t (beginsAbove_nil _) (beginsAbove_nil _) (congrArg (· ++ []) h)).1

end BehaviorTree.Snapshot
