import BehaviorTree.Dict
import Mathlib.Data.List.Induction

namespace BehaviorTree.Dict

/-!
# Writing a dictionary into a state

A state that is written under keys may keep of every key what was written last, and nothing of the
order in which keys were written.  Then the dictionary of what was written determines the state,
whatever the sequence of writes was.  `Dict.replay` is that state: the entries of the dictionary are
written in the order of their keys.

Main statements: `replay_insert` — one more write is one more entry;
`Settling.writeAll_eq_of_lookup` — only the last value under each key matters.
-/

universe u v w

variable {α : Type u} {σ : Type v}

/-- A write of a value under a key undoes earlier ones under this key, and does not interfere with
    those under other keys. -/
structure Settling (write : String → α → σ → σ) : Prop where
  /-- Of two values under one key the later one counts. -/
  again (k : String) (x y : α) (s : σ) : write k y (write k x s) = write k y s
  /-- Two keys can be written in either order. -/
  swap {k l : String} (h : k ≠ l) (x y : α) (s : σ) :
    write l y (write k x s) = write k x (write l y s)

/-- Writes entries one after the other. -/
def writeAll (write : String → α → σ → σ) (es : List (String × α)) (s : σ) : σ :=
  es.foldl (fun s e => write e.1 e.2 s) s

/-- Writes every entry of a dictionary, in the order of the keys. -/
def replay (write : String → α → σ → σ) (d : Dict α) (s : σ) : σ := writeAll write d.entries s

variable {write : String → α → σ → σ} {k : String} {x : α} {es : List (String × α)}

@[simp]
theorem writeAll_cons (e : String × α) (s : σ) :
    writeAll write (e :: es) s = writeAll write es (write e.1 e.2 s) := rfl

/-- What no write changes. -/
theorem replay_keeps {γ : Sort w} (f : σ → γ) (hf : ∀ k x s, f (write k x s) = f s) (d : Dict α)
    (s : σ) : f (d.replay write s) = f s := by
  unfold replay
  generalize d.entries = es
  induction es generalizing s with
  | nil => rfl
  | cons e es ih => rw [writeAll_cons, ih, hf]

/-- A write can wait until after writes under other keys. -/
theorem Settling.writeAll_write (h : Settling write) (hk : k ∉ es.map Prod.fst) (s : σ) :
    writeAll write es (write k x s) = write k x (writeAll write es s) := by
  induction es generalizing s with
  | nil => rfl
  | cons e es ih =>
    obtain ⟨hne, hes⟩ := List.ne_and_not_mem_of_not_mem_cons hk
    rw [writeAll_cons, writeAll_cons, h.swap hne, ih hes]

theorem Settling.writeAll_put (h : Settling write) (hes : (es.map Prod.fst).Pairwise (· < ·))
    (s : σ) : writeAll write (put k x es) s = write k x (writeAll write es s) := by
  induction es generalizing s with
  | nil => rfl
  | cons e es ih =>
    obtain ⟨l, y⟩ := e
    obtain ⟨hl, hes⟩ := List.pairwise_cons.1 hes
    unfold put
    split
    next hlt =>
      -- the new key is below all others, so it is not among them
      have hk : k ∉ ((l, y) :: es).map Prod.fst := by
        intro hmem
        rcases List.mem_cons.1 hmem with rfl | hmem
        · exact String.lt_irrefl _ hlt
        · exact String.lt_irrefl _ (String.lt_trans hlt (hl k hmem))
      exact h.writeAll_write hk s
    next =>
      split
      next heq =>
        subst heq
        have hk : k ∉ es.map Prod.fst := fun hmem => String.lt_irrefl _ (hl k hmem)
        simp only [writeAll_cons]
        rw [h.writeAll_write hk, h.writeAll_write hk, h.again]
      next => exact ih hes (write l y s)

/-- Writing a value after a dictionary is writing the dictionary with this value. -/
theorem replay_insert (h : Settling write) (d : Dict α) (s : σ) :
    (d.insert k x).replay write s = write k x (d.replay write s) :=
  h.writeAll_put d.ascending s

/-- A dictionary settles what is put into it. -/
theorem settling_insert : Settling fun k (x : α) (d : Dict α) => d.insert k x where
  again k x y d := by
    apply ext
    intro l
    simp only [get?_insert]
    split <;> rfl
  swap {k l} h x y d := by
    apply ext
    intro m
    simp only [get?_insert]
    by_cases hk : m = k
    · rw [if_pos hk, if_pos hk, if_neg (hk ▸ h)]
    · rw [if_neg hk, if_neg hk]

theorem ofList_append (es : List (String × α)) (e : String × α) :
    ofList (es ++ [e]) = (ofList es).insert e.1 e.2 := by
  rw [ofList, List.foldl_append]
  rfl

/-- Of several values under one key a dictionary has the last one. -/
theorem get?_ofList (es : List (String × α)) (k : String) :
    (ofList es).get? k = es.reverse.lookup k := by
  induction es using List.reverseRecOn with
  | nil => rfl
  | append_singleton es e ih =>
    rw [ofList_append, get?_insert, ih, List.reverse_concat, List.lookup_cons]
    by_cases hk : k = e.1
    · rw [if_pos hk, beq_iff_eq.2 hk]
    · rw [if_neg hk, beq_eq_false_iff_ne.2 hk]

/-- Writing entries is writing their dictionary. -/
theorem Settling.writeAll_eq_replay (h : Settling write) (es : List (String × α)) (s : σ) :
    writeAll write es s = (ofList es).replay write s := by
  induction es using List.reverseRecOn with
  | nil => rfl
  | append_singleton es e ih =>
    rw [ofList_append, replay_insert h, ← ih, writeAll, List.foldl_append]
    rfl

/-- Entries with the same last value under every key write the same. -/
theorem Settling.writeAll_eq_of_lookup (h : Settling write) {es fs : List (String × α)}
    (hlast : ∀ k, es.reverse.lookup k = fs.reverse.lookup k) (s : σ) :
    writeAll write es s = writeAll write fs s := by
  have hdict : ofList es = ofList fs := by
    apply ext
    intro k
    rw [get?_ofList, get?_ofList, hlast]
  rw [h.writeAll_eq_replay, h.writeAll_eq_replay, hdict]

end BehaviorTree.Dict
