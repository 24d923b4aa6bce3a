import VhdlFrontEnd.Text.Charset

/-!
# Block comments on one line

Where a block comment closes, and whether a line of code leaves one open. Comments do not nest:
the first closer ends a comment. Main statement: splitting at a mark loses nothing but the mark.
-/

namespace VhdlFrontEnd.Source

/-- What stands before and after the first `a` that a `b` follows. -/
def splitMark? (a b : Char) : List Char → Option (List Char × List Char)
  | [] => none
  | c :: rest =>
    if c = a ∧ rest.head? = some b then some ([], rest.tail)
    else (splitMark? a b rest).map fun (front, back) => (c :: front, back)

/-- What stands before and after the first `*/`. -/
def splitCloser? (cs : List Char) : Option (List Char × List Char) := splitMark? '*' '/' cs

/-- What stands before and after the first `/*`. -/
def splitOpener? (cs : List Char) : Option (List Char × List Char) := splitMark? '/' '*' cs

theorem splitMark?_eq_some {a b : Char} {cs front back : List Char}
    (h : splitMark? a b cs = some (front, back)) : cs = front ++ a :: b :: back := by
  induction cs generalizing front with
  | nil => simp [splitMark?] at h
  | cons c rest ih =>
    rw [splitMark?] at h
    split at h
    · next hc =>
      obtain ⟨rfl, hb⟩ := hc
      cases rest with
      | nil => simp at hb
      | cons d rest =>
        simp only [List.head?_cons, Option.some.injEq] at hb
        simp only [List.tail_cons, Option.some.injEq, Prod.mk.injEq] at h
        rw [← h.1, ← h.2, hb]; rfl
    · obtain ⟨⟨f, k⟩, hr, he⟩ := Option.map_eq_some_iff.mp h
      simp only [Prod.mk.injEq] at he
      obtain ⟨rfl, rfl⟩ := he
      rw [ih hr]; rfl

theorem length_back_lt {a b : Char} {cs front back : List Char}
    (h : splitMark? a b cs = some (front, back)) : back.length < cs.length := by
  rw [splitMark?_eq_some h]; simp; omega

/-- What stands before a `/*` on a line of code that no closer on the line follows. Openers in
string literals, in character literals of one byte and after `--` do not count. -/
def unclosedOpener? : List Char → Option (List Char)
  | [] => none
  | c :: rest =>
    if c = '"' then
      match _h : rest.dropWhile (· ≠ '"') with
      | [] => none
      | q :: after =>
        (unclosedOpener? after).map fun front => c :: rest.takeWhile (· ≠ '"') ++ q :: front
    else if c = '-' ∧ rest.head? = some '-' then none
    else if c = '/' ∧ rest.head? = some '*' then
      match _h : splitCloser? rest.tail with
      | none => some []
      | some (inside, after) =>
        (unclosedOpener? after).map fun front => '/' :: '*' :: inside ++ '*' :: '/' :: front
    else
      match rest with
      | x :: '\'' :: after =>
        if c = '\'' ∧ Text.isAscii x then
          (unclosedOpener? after).map fun front => c :: x :: '\'' :: front
        else (unclosedOpener? (x :: '\'' :: after)).map (c :: ·)
      | rest => (unclosedOpener? rest).map (c :: ·)
termination_by cs => cs.length
decreasing_by
  · have := (List.dropWhile_suffix (p := fun d => decide (d ≠ '"')) (l := rest)).length_le
    simp_all; omega
  · have := length_back_lt _h
    have : rest.tail.length ≤ rest.length := by simp
    simp; omega
  · simp only [List.length_cons]; omega
  all_goals simp_all

end VhdlFrontEnd.Source
