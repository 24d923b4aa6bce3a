import VhdlFrontEnd.Source.Comment

/-!
# First marks

A comment mark is two characters side by side. `splitMark?_eq_some_iff` and
`splitMark?_eq_none_iff` show that a text is split at the first mark, and only where it holds one.
A quote is a mark of one character, at which a text is split by `takeWhile` and `dropWhile`; so is a
run of characters of one class at its end.
-/

namespace VhdlFrontEnd.Source

variable {a b c : Char} {cs front back : List Char}

theorem pair_prefix_cons : [a, b] <+: c :: cs ↔ c = a ∧ cs.head? = some b := by
  rw [List.cons_prefix_cons]
  cases cs <;> simp [eq_comm]

theorem exists_of_pair_prefix (starts : [a, b] <+: cs) : ∃ rest, cs = a :: b :: rest := by
  obtain ⟨rest, whole⟩ := starts
  exact ⟨rest, whole.symm⟩

theorem pair_infix_cons :
    [a, b] <:+: c :: cs ↔ (c = a ∧ cs.head? = some b) ∨ [a, b] <:+: cs := by
  rw [List.infix_cons_iff, pair_prefix_cons]

theorem splitMark?_cons_of_mark (mark : c = a ∧ cs.head? = some b) :
    splitMark? a b (c :: cs) = some ([], cs.tail) := by
  rw [splitMark?, if_pos mark]

theorem splitMark?_cons_of_not_mark (other : ¬ (c = a ∧ cs.head? = some b)) :
    splitMark? a b (c :: cs) = (splitMark? a b cs).map fun (front, back) => (c :: front, back) := by
  rw [splitMark?, if_neg other]

theorem splitMark?_eq_none_iff : splitMark? a b cs = none ↔ ¬ [a, b] <:+: cs := by
  induction cs with
  | nil => simp [splitMark?]
  | cons c cs ih =>
    rw [pair_infix_cons]
    by_cases mark : c = a ∧ cs.head? = some b
    · rw [splitMark?_cons_of_mark mark]
      exact ⟨fun h => absurd h (Option.some_ne_none _), fun absent => absurd (Or.inl mark) absent⟩
    · rw [splitMark?_cons_of_not_mark mark, Option.map_eq_none_iff, ih]
      exact ⟨fun absent => not_or.mpr ⟨mark, absent⟩, fun absent => (not_or.mp absent).2⟩

/-- The mark at which a text is split is the first one. -/
theorem front_of_splitMark? (h : splitMark? a b cs = some (front, back)) :
    ¬ [a, b] <:+: front ++ [a] := by
  induction cs generalizing front with
  | nil => cases h
  | cons c cs ih =>
    by_cases mark : c = a ∧ cs.head? = some b
    · rw [splitMark?_cons_of_mark mark] at h
      obtain ⟨rfl, -⟩ := Prod.mk.inj (Option.some.inj h)
      simp [pair_infix_cons]
    · rw [splitMark?_cons_of_not_mark mark] at h
      obtain ⟨⟨front, back⟩, split, same⟩ := Option.map_eq_some_iff.mp h
      obtain ⟨rfl, rfl⟩ := Prod.mk.inj same
      rw [List.cons_append, pair_infix_cons, not_or]
      refine ⟨fun ⟨first, second⟩ => mark ⟨first, ?_⟩, ih split⟩
      rw [splitMark?_eq_some split]
      cases front <;> simpa using second

theorem splitMark?_eq_some_iff :
    splitMark? a b cs = some (front, back) ↔
      cs = front ++ a :: b :: back ∧ ¬ [a, b] <:+: front ++ [a] := by
  refine ⟨fun h => ⟨splitMark?_eq_some h, front_of_splitMark? h⟩, ?_⟩
  rintro ⟨rfl, first⟩
  induction front with
  | nil => exact splitMark?_cons_of_mark ⟨rfl, rfl⟩
  | cons c front ih =>
    rw [List.cons_append, pair_infix_cons, not_or] at first
    rw [List.cons_append, splitMark?_cons_of_not_mark, ih first.2]
    · rfl
    · rintro ⟨same, next⟩
      refine first.1 ⟨same, ?_⟩
      cases front <;> simpa using next

/-! ### Marks of one character -/

theorem not_mem_takeWhile_ne (q : Char) (cs : List Char) : q ∉ cs.takeWhile (· ≠ q) := by
  intro mem
  simpa using List.all_eq_true.mp List.all_takeWhile q mem

theorem eq_of_dropWhile_ne {q : Char} (h : cs.dropWhile (· ≠ q) = c :: back) : c = q := by
  have first := List.head?_dropWhile_not (fun d : Char => decide (d ≠ q)) cs
  rw [h] at first
  simpa using first

/-! ### Runs of a class -/

variable {p : Char → Bool}

/-- A run of characters of a class does not go on into a text that starts with none of them. -/
theorem takeWhile_append_of_stop (stop : ∀ c ∈ back.head?, p c = false) (front : List Char) :
    (front ++ back).takeWhile p = front.takeWhile p := by
  induction front with
  | nil =>
    cases back with
    | nil => rfl
    | cons c back => exact List.takeWhile_cons_of_neg (by simp [stop c rfl])
  | cons c front ih => by_cases h : p c <;> simp [h, ih]

theorem dropWhile_append_of_stop (stop : ∀ c ∈ back.head?, p c = false) (front : List Char) :
    (front ++ back).dropWhile p = front.dropWhile p ++ back := by
  induction front with
  | nil =>
    cases back with
    | nil => rfl
    | cons c back => exact List.dropWhile_cons_of_neg (by simp [stop c rfl])
  | cons c front ih => by_cases h : p c <;> simp [h, ih]

end VhdlFrontEnd.Source
