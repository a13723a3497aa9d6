namespace BehaviorTree

/-!
# Dictionaries

A finite map from texts to values, kept as a list of entries in strictly ascending order of
their keys.  There is one dictionary for each finite map, so equality of dictionaries is equality
of maps, and printing the entries in their order is printing them sorted by key.

* `Dict.ext` — two dictionaries with the same lookups are equal;
* `Dict.get?_insert`, `Dict.get?_erase` — what a write does to every lookup.
-/

/-- A finite map from texts to values. -/
structure Dict (α : Type u) where
  entries : List (String × α)
  /-- The keys ascend strictly. -/
  ascending : (entries.map Prod.fst).Pairwise (· < ·) := by simp

namespace Dict

variable {α : Type u}

/-! ### Lists of entries -/

/-- The value of the first entry with key `k`. -/
def lookup (k : String) : List (String × α) → Option α
  | [] => none
  | (k', v) :: rest => if k = k' then some v else lookup k rest

/-- Puts `v` under `k` into a list of ascending entries. -/
def put (k : String) (v : α) : List (String × α) → List (String × α)
  | [] => [(k, v)]
  | (k', v') :: rest =>
    if k < k' then (k, v) :: (k', v') :: rest
    else if k = k' then (k, v) :: rest
    else (k', v') :: put k v rest

theorem mem_keys_put {k x : String} {v : α} {es : List (String × α)} :
    x ∈ (put k v es).map Prod.fst ↔ x = k ∨ x ∈ es.map Prod.fst := by
  induction es with
  | nil => simp [put]
  | cons e rest ih =>
    obtain ⟨k', v'⟩ := e
    simp only [put]
    split
    · simp
    · split
      · simp_all
      · simp only [List.map_cons, List.mem_cons, ih]
        grind

theorem ascending_put {k : String} {v : α} {es : List (String × α)}
    (h : (es.map Prod.fst).Pairwise (· < ·)) : ((put k v es).map Prod.fst).Pairwise (· < ·) := by
  induction es with
  | nil => simp [put]
  | cons e rest ih =>
    obtain ⟨k', v'⟩ := e
    simp only [List.map_cons, List.pairwise_cons] at h
    simp only [put]
    split
    · rename_i hlt
      simp only [List.map_cons, List.pairwise_cons, List.mem_cons]
      refine ⟨fun x hx => ?_, h⟩
      rcases hx with rfl | hx
      · exact hlt
      · exact String.lt_trans hlt (h.1 x hx)
    · split
      · rename_i heq
        subst heq
        simpa using h
      · rename_i hnlt hne
        simp only [List.map_cons, List.pairwise_cons]
        refine ⟨fun x hx => ?_, ih h.2⟩
        rcases mem_keys_put.1 hx with rfl | hx
        · have hle := String.not_lt.1 hnlt
          by_cases hlt : k' < x
          · exact hlt
          · exact absurd (String.le_antisymm (String.not_lt.1 hlt) hle) hne
        · exact h.1 x hx

theorem lookup_put (k k' : String) (v : α) (es : List (String × α)) :
    lookup k' (put k v es) = if k' = k then some v else lookup k' es := by
  induction es with
  | nil => simp [put, lookup]
  | cons e rest ih =>
    obtain ⟨k₁, v₁⟩ := e
    simp only [put]
    split
    · simp [lookup]
    · split
      · simp only [lookup]
        grind
      · simp only [lookup, ih]
        grind

theorem lookup_eq_none_of_not_mem {k : String} {es : List (String × α)}
    (h : k ∉ es.map Prod.fst) : lookup k es = none := by
  induction es with
  | nil => rfl
  | cons e rest ih =>
    simp only [List.map_cons, List.mem_cons, not_or] at h
    simp [lookup, h.1, ih h.2]

theorem mem_keys_of_lookup {k : String} {v : α} {es : List (String × α)}
    (h : lookup k es = some v) : k ∈ es.map Prod.fst := by
  by_cases hk : k ∈ es.map Prod.fst
  · exact hk
  · rw [lookup_eq_none_of_not_mem hk] at h
    exact absurd h nofun

theorem exists_lookup_of_mem {k : String} {es : List (String × α)} (h : k ∈ es.map Prod.fst) :
    ∃ v, lookup k es = some v := by
  induction es with
  | nil => exact absurd h nofun
  | cons e rest ih =>
    by_cases hk : k = e.1
    · exact ⟨e.2, by simp [lookup, hk]⟩
    · obtain ⟨v, hv⟩ := ih (by simpa [hk] using h)
      exact ⟨v, by simp [lookup, hk, hv]⟩

theorem lookup_ext {es fs : List (String × α)} (he : (es.map Prod.fst).Pairwise (· < ·))
    (hf : (fs.map Prod.fst).Pairwise (· < ·)) (h : ∀ k, lookup k es = lookup k fs) : es = fs := by
  induction es generalizing fs with
  | nil =>
    cases fs with
    | nil => rfl
    | cons f rest => simpa [lookup] using h f.1
  | cons e rest ih =>
    obtain ⟨k, v⟩ := e
    cases fs with
    | nil => simpa [lookup] using h k
    | cons f rest' =>
      obtain ⟨k', v'⟩ := f
      simp only [List.map_cons, List.pairwise_cons] at he hf
      -- each first key is among the other's keys, so neither is below the other
      have hk : k = k' := by
        have h₁ := h k
        have h₂ := h k'
        simp only [lookup, if_true] at h₁ h₂
        by_cases heq : k = k'
        · exact heq
        · rw [if_neg heq] at h₁
          rw [if_neg (Ne.symm heq)] at h₂
          have hlt := hf.1 k (mem_keys_of_lookup h₁.symm)
          have hgt := he.1 k' (mem_keys_of_lookup h₂)
          exact absurd (String.lt_trans hlt hgt) (String.lt_irrefl _)
      subst hk
      have hv : v = v' := by simpa [lookup] using h k
      subst hv
      have hrest : rest = rest' := by
        refine ih he.2 hf.2 fun x => ?_
        have hx := h x
        simp only [lookup] at hx
        by_cases heq : x = k
        · subst heq
          have h₁ : x ∉ rest.map Prod.fst := fun hm => String.lt_irrefl _ (he.1 x hm)
          have h₂ : x ∉ rest'.map Prod.fst := fun hm => String.lt_irrefl _ (hf.1 x hm)
          rw [lookup_eq_none_of_not_mem h₁, lookup_eq_none_of_not_mem h₂]
        · simpa [heq] using hx
      rw [hrest]

/-! ### Dictionaries -/

/-- The empty dictionary. -/
def empty : Dict α := ⟨[], by simp⟩

instance : Inhabited (Dict α) := ⟨empty⟩

/-- The value under `k`. -/
def get? (d : Dict α) (k : String) : Option α := lookup k d.entries

/-- Whether there is a value under `k`. -/
def contains (d : Dict α) (k : String) : Bool := (d.get? k).isSome

/-- The keys, in ascending order. -/
def keys (d : Dict α) : List String := d.entries.map Prod.fst

/-- The number of keys. -/
def size (d : Dict α) : Nat := d.entries.length

/-- Whether there is no key. -/
def isEmpty (d : Dict α) : Bool := d.entries.isEmpty

/-- Puts `v` under `k`, in place of what was there. -/
def insert (d : Dict α) (k : String) (v : α) : Dict α where
  entries := put k v d.entries
  ascending := ascending_put d.ascending

/-- Takes away what is under `k`. -/
def erase (d : Dict α) (k : String) : Dict α where
  entries := d.entries.filter (·.1 ≠ k)
  ascending := by
    have h := d.ascending
    rw [List.pairwise_map] at h ⊢
    exact h.filter _

/-- The dictionary of a list of entries; of two entries with one key the later counts. -/
def ofList (es : List (String × α)) : Dict α :=
  es.foldl (fun d e => d.insert e.1 e.2) empty

/-- Each value replaced by its image. -/
def map {β : Type v} (f : α → β) (d : Dict α) : Dict β where
  entries := d.entries.map fun e => (e.1, f e.2)
  ascending := by simpa [List.map_map, Function.comp_def] using d.ascending

/-- Whether two dictionaries have the same keys with equal values. -/
def beq [BEq α] (d e : Dict α) : Bool := d.entries == e.entries

instance [BEq α] : BEq (Dict α) := ⟨beq⟩

theorem eq_of_entries {d e : Dict α} (h : d.entries = e.entries) : d = e := by
  cases d; cases e; simp_all

instance [DecidableEq α] : DecidableEq (Dict α) := fun d e =>
  decidable_of_iff (d.entries = e.entries) ⟨eq_of_entries, fun h => h ▸ rfl⟩

/-- Two dictionaries with the same lookups are equal. -/
@[ext]
theorem ext {d e : Dict α} (h : ∀ k, d.get? k = e.get? k) : d = e :=
  eq_of_entries (lookup_ext d.ascending e.ascending h)

@[simp]
theorem get?_empty (k : String) : (empty : Dict α).get? k = none := rfl

theorem get?_insert (d : Dict α) (k k' : String) (v : α) :
    (d.insert k v).get? k' = if k' = k then some v else d.get? k' :=
  lookup_put k k' v d.entries

@[simp]
theorem get?_insert_self (d : Dict α) (k : String) (v : α) : (d.insert k v).get? k = some v := by
  simp [get?_insert]

theorem get?_insert_of_ne (d : Dict α) {k k' : String} (h : k' ≠ k) (v : α) :
    (d.insert k v).get? k' = d.get? k' := by
  simp [get?_insert, h]

theorem get?_erase (d : Dict α) (k k' : String) :
    (d.erase k).get? k' = if k' = k then none else d.get? k' := by
  have general : ∀ es : List (String × α),
      lookup k' (es.filter (·.1 ≠ k)) = if k' = k then none else lookup k' es := by
    intro es
    induction es with
    | nil => simp [lookup]
    | cons e rest ih =>
      obtain ⟨k₁, v₁⟩ := e
      by_cases hk : k₁ = k
      · rw [List.filter_cons_of_neg (by simp [hk]), ih]
        simp only [lookup]
        grind
      · rw [List.filter_cons_of_pos (by simp [hk])]
        simp only [lookup, ih]
        grind
  exact general d.entries

theorem contains_iff {d : Dict α} {k : String} : d.contains k = true ↔ ∃ v, d.get? k = some v := by
  simp [contains, Option.isSome_iff_exists]

theorem mem_keys {d : Dict α} {k : String} : k ∈ d.keys ↔ (d.get? k).isSome := by
  cases hv : d.get? k with
  | some v => simp [keys, mem_keys_of_lookup hv]
  | none =>
    rw [Option.isSome_none, Bool.false_eq_true, iff_false]
    intro hk
    obtain ⟨v, hsome⟩ := exists_lookup_of_mem hk
    exact absurd (hv.symm.trans hsome) nofun

theorem keys_ascending (d : Dict α) : d.keys.Pairwise (· < ·) := d.ascending

end Dict

end BehaviorTree
