import BehaviorTree.Source.Token

namespace BehaviorTree.Source

/-!
# Lines of a file

A file is cut at its line feeds, and a carriage return before a line feed belongs to the end of the line.

* `chomp` — a line without a carriage return at its end;
* `lines_line`, `lines_last` — the first line of a file, and the last one.
-/

/-- A line without a carriage return at its end. -/
def chomp : List Char → List Char
  | [] => []
  | ['\r'] => []
  | c :: cs => c :: chomp cs

theorem chomp_cons {c : Char} {cs : List Char} (h : c ≠ '\r' ∨ cs ≠ []) :
    chomp (c :: cs) = c :: chomp cs := by
  rw [chomp]
  rintro rfl rfl
  simp at h

theorem chomp_append {ds : List Char} (h : ds.getLast? ≠ some '\r') (cs : List Char) :
    chomp (ds ++ cs) = ds ++ chomp cs := by
  induction ds with
  | nil => rfl
  | cons d ds ih =>
    cases ds with
    | nil =>
      have hd : d ≠ '\r' := fun hd => h (by rw [hd]; rfl)
      exact chomp_cons (.inl hd)
    | cons e ds =>
      have hrest := ih (by rwa [List.getLast?_cons_cons] at h)
      rw [List.cons_append, chomp_cons (.inr (by simp)), hrest]
      rfl

@[simp]
theorem chomp_return (cs : List Char) : chomp (cs ++ ['\r']) = cs := by
  induction cs with
  | nil => rfl
  | cons c cs ih => rw [List.cons_append, chomp_cons (.inr (by simp)), ih]

theorem mem_head?_of_chomp {c : Char} {cs : List Char} (h : c ∈ (chomp cs).head?) :
    c ∈ cs.head? := by
  cases cs using chomp.fun_cases with
  | case1 => exact h
  | case2 => simp [chomp] at h
  | case3 d cs hd =>
    rwa [chomp] at h
    exact hd

/-- A character that begins no line end stands at the beginning of its line. -/
theorem lines_cons {c : Char} {cs l : List Char} {ls : List (List Char)} (hc : c ≠ '\n')
    (hreturn : ∀ ds, c = '\r' → cs = '\n' :: ds → False) (h : lines cs = l :: ls) :
    lines (c :: cs) = (c :: l) :: ls := by
  rw [lines, h]
  · exact hc
  · exact hreturn

/-- The first line of a file goes to its first line feed. -/
theorem lines_line {cs : List Char} (h : '\n' ∉ cs) (ds : List Char) :
    lines (cs ++ '\n' :: ds) = chomp cs :: lines ds := by
  induction cs with
  | nil => rfl
  | cons c cs ih =>
    have hc := List.ne_of_not_mem_cons h
    have hcs := List.not_mem_of_not_mem_cons h
    have hrest := ih hcs
    by_cases hreturn : c = '\r' ∧ cs = []
    · obtain ⟨rfl, rfl⟩ := hreturn
      rfl
    · rw [chomp_cons (Decidable.not_and_iff_not_or_not.1 hreturn)]
      refine lines_cons (Ne.symm hc) ?_ hrest
      rintro es rfl hes
      cases cs with
      | nil => simp at hreturn
      | cons d cs =>
        obtain ⟨rfl, -⟩ := List.cons.inj hes
        simp at hcs

/-- What follows the last line feed is a line unless it is empty. -/
theorem lines_last {cs : List Char} (h : '\n' ∉ cs) (hne : cs ≠ []) : lines cs = [cs] := by
  induction cs with
  | nil => exact absurd rfl hne
  | cons c cs ih =>
    have hc := List.ne_of_not_mem_cons h
    have hcs := List.not_mem_of_not_mem_cons h
    have hreturn : ∀ ds, c = '\r' → cs = '\n' :: ds → False := by
      rintro ds - rfl
      simp at hcs
    cases cs with
    | nil =>
      rw [lines]
      · rfl
      · exact Ne.symm hc
      · exact hreturn
    | cons d cs => exact lines_cons (Ne.symm hc) hreturn (ih hcs (by simp))

/-- No line holds a line feed. -/
theorem not_mem_of_mem_lines {cs l : List Char} (h : l ∈ lines cs) : '\n' ∉ l := by
  induction cs using lines.induct generalizing l with
  | case1 => simp [lines] at h
  | case2 cs ih =>
    rcases List.mem_cons.1 (lines.eq_2 cs ▸ h) with rfl | h
    · simp
    · exact ih h
  | case3 cs ih =>
    rcases List.mem_cons.1 (lines.eq_3 cs ▸ h) with rfl | h
    · simp
    · exact ih h
  | case4 c cs hc hreturn hlines ih =>
    rw [lines.eq_4 c cs hc hreturn, hlines] at h
    obtain rfl := List.mem_singleton.1 h
    simpa using fun h => hc (Eq.symm h)
  | case5 c cs hc hreturn m ms hlines ih =>
    rw [lines_cons hc hreturn hlines] at h
    rcases List.mem_cons.1 h with rfl | h
    · have hm := ih (hlines ▸ List.mem_cons_self)
      exact List.not_mem_cons_of_ne_of_not_mem (fun h => hc h.symm) hm
    · exact ih (hlines ▸ List.mem_cons_of_mem m h)

end BehaviorTree.Source
