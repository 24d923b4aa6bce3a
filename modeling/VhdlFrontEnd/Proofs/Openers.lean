import Mathlib.Data.List.TakeWhile
import VhdlFrontEnd.Proofs.Mark

/-!
# Openers that the roles of lines go by

`Skipped` says what a text may be taken for on the way to an opener, one step at a time.
`unclosedOpener?_eq_some_iff` shows that the opener found is one that no closer follows and that
such steps reach.
-/

namespace VhdlFrontEnd.Source

/-- The text starts with a character literal of one byte. -/
def ByteLiteral (cs : List Char) : Prop :=
  ∃ x after, cs = '\'' :: x :: '\'' :: after ∧ Text.isAscii x

/-- With `rest` behind it, the character starts no literal and no comment. -/
structure Alone (c : Char) (rest : List Char) : Prop where
  quote : c ≠ '"'
  dashes : ¬ (c = '-' ∧ rest.head? = some '-')
  opener : ¬ (c = '/' ∧ rest.head? = some '*')
  literal : ¬ ByteLiteral (c :: rest)

theorem alone_dash {rest : List Char} (h : rest.head? ≠ some '-') : Alone '-' rest := by
  refine ⟨by decide, fun dashes => h dashes.2, fun opener => absurd opener.1 (by decide), ?_⟩
  rintro ⟨x, after, same, -⟩
  exact absurd (List.cons.inj same).1 (by decide)

theorem alone_slash {rest : List Char} (h : rest.head? ≠ some '*') : Alone '/' rest := by
  refine ⟨by decide, fun dashes => absurd dashes.1 (by decide), fun opener => h opener.2, ?_⟩
  rintro ⟨x, after, same, -⟩
  exact absurd (List.cons.inj same).1 (by decide)

theorem alone_apostrophe {rest : List Char} (h : ¬ ByteLiteral ('\'' :: rest)) : Alone '\'' rest :=
  ⟨by decide, fun dashes => absurd dashes.1 (by decide), fun opener => absurd opener.1 (by decide), h⟩

section NoMark

variable {c : Char} {rest : List Char} (quote : c ≠ '"') (dashes : ¬ (c = '-' ∧ rest.head? = some '-'))
  (opener : ¬ (c = '/' ∧ rest.head? = some '*'))

include quote dashes opener

theorem alone_of_not_literal {x : Char} {after : List Char} (other : ¬ (c = '\'' ∧ Text.isAscii x))
    (here : rest = x :: '\'' :: after := by rfl) : Alone c rest := by
  refine ⟨quote, dashes, opener, ?_⟩
  rintro ⟨y, more, literal, ascii⟩
  subst here
  cases literal
  exact other ⟨rfl, ascii⟩

theorem alone_of_short (short : ∀ x after, rest = x :: '\'' :: after → False) : Alone c rest := by
  refine ⟨quote, dashes, opener, ?_⟩
  rintro ⟨x, after, literal, -⟩
  exact short x after (List.cons.inj literal).2

end NoMark

/-- The text before `rest` is passed over in whole steps: what stands between two quotes, a
comment up to its closer, a character literal of one byte, or a single character. -/
inductive Skipped : (front rest : List Char) → Prop where
  | nil {rest} : Skipped [] rest
  | string {body front rest} : '"' ∉ body → Skipped front rest →
      Skipped ('"' :: (body ++ '"' :: front)) rest
  | comment {body front rest} : ¬ ['*', '/'] <:+: body ++ ['*'] → Skipped front rest →
      Skipped ('/' :: '*' :: (body ++ '*' :: '/' :: front)) rest
  | literal {x front rest} : Text.isAscii x → Skipped front rest →
      Skipped ('\'' :: x :: '\'' :: front) rest
  | alone {c front rest} : Alone c (front ++ rest) → Skipped front rest → Skipped (c :: front) rest

variable {c x : Char} {body front rest : List Char}

/-! ### One step -/

theorem unquoted_all (unquoted : '"' ∉ body) : ∀ d ∈ body, decide (d ≠ '"') = true := by
  intro d mem
  exact decide_eq_true fun same => unquoted (same ▸ mem)

theorem unclosedOpener?_string (unquoted : '"' ∉ body) (rest : List Char) :
    unclosedOpener? ('"' :: (body ++ '"' :: rest)) =
      (unclosedOpener? rest).map fun front => '"' :: (body ++ '"' :: front) := by
  have inside : (body ++ '"' :: rest).takeWhile (· ≠ '"') = body := by
    rw [List.takeWhile_append_of_pos (unquoted_all unquoted)]
    simp
  have closes : (body ++ '"' :: rest).dropWhile (· ≠ '"') = '"' :: rest := by
    rw [List.dropWhile_append_of_pos (unquoted_all unquoted)]
    simp
  rw [unclosedOpener?.eq_def]
  dsimp only
  rw [if_pos rfl]
  split
  · next runs_off => rw [closes] at runs_off; cases runs_off
  · next q after found =>
    rw [closes] at found
    obtain ⟨rfl, rfl⟩ := List.cons.inj found
    rw [inside]
    rfl

theorem unclosedOpener?_openString (unquoted : '"' ∉ body) :
    unclosedOpener? ('"' :: body) = none := by
  have runs_off : body.dropWhile (· ≠ '"') = [] :=
    List.dropWhile_eq_nil_iff.mpr (unquoted_all unquoted)
  rw [unclosedOpener?.eq_def]
  dsimp only
  rw [if_pos rfl]
  split
  · rfl
  · next found => rw [runs_off] at found; cases found

theorem unclosedOpener?_lineComment (rest : List Char) : unclosedOpener? ('-' :: '-' :: rest) = none := by
  rw [unclosedOpener?.eq_def]
  dsimp only
  rw [if_neg (by decide), if_pos ⟨rfl, rfl⟩]

theorem unclosedOpener?_openComment (unclosed : ¬ ['*', '/'] <:+: body) :
    unclosedOpener? ('/' :: '*' :: body) = some [] := by
  have none_closes : splitCloser? body = none := splitMark?_eq_none_iff.mpr unclosed
  rw [unclosedOpener?.eq_def]
  dsimp only
  rw [if_neg (by decide), if_neg (by simp), if_pos ⟨rfl, rfl⟩]
  split
  · rfl
  · next found =>
    rw [List.tail_cons, none_closes] at found
    cases found

theorem unclosedOpener?_comment (first : ¬ ['*', '/'] <:+: body ++ ['*']) (rest : List Char) :
    unclosedOpener? ('/' :: '*' :: (body ++ '*' :: '/' :: rest)) =
      (unclosedOpener? rest).map fun front => '/' :: '*' :: (body ++ '*' :: '/' :: front) := by
  have closes : splitCloser? (body ++ '*' :: '/' :: rest) = some (body, rest) :=
    splitMark?_eq_some_iff.mpr ⟨rfl, first⟩
  rw [unclosedOpener?.eq_def]
  dsimp only
  rw [if_neg (by decide), if_neg (by simp), if_pos ⟨rfl, rfl⟩]
  split
  · next found =>
    rw [List.tail_cons, closes] at found
    cases found
  · next inside after found =>
    rw [List.tail_cons, closes] at found
    obtain ⟨rfl, rfl⟩ := Prod.mk.inj (Option.some.inj found)
    rfl

theorem unclosedOpener?_literal (ascii : Text.isAscii x) (rest : List Char) :
    unclosedOpener? ('\'' :: x :: '\'' :: rest) =
      (unclosedOpener? rest).map ('\'' :: x :: '\'' :: ·) := by
  rw [unclosedOpener?.eq_def]
  dsimp only
  rw [if_neg (by decide), if_neg (by simp), if_neg (by simp)]
  simp only [ascii, and_self, if_true]

theorem unclosedOpener?_alone (alone : Alone c rest) :
    unclosedOpener? (c :: rest) = (unclosedOpener? rest).map (c :: ·) := by
  rw [unclosedOpener?.eq_def]
  dsimp only
  rw [if_neg alone.quote, if_neg alone.dashes, if_neg alone.opener]
  split
  · next x after =>
    rw [if_neg]
    rintro ⟨rfl, ascii⟩
    exact alone.literal ⟨x, after, rfl, ascii⟩
  · rfl

/-! ### All steps -/

/-- An opener is looked for past everything that is passed over. -/
theorem Skipped.unclosedOpener? (skipped : Skipped front rest) :
    unclosedOpener? (front ++ rest) = (unclosedOpener? rest).map (front ++ ·) := by
  induction skipped with
  | nil => simp
  | string unquoted _ ih =>
    simp only [List.cons_append, List.append_assoc, unclosedOpener?_string unquoted, ih,
      Option.map_map, Function.comp_def]
  | comment first _ ih =>
    simp only [List.cons_append, List.append_assoc, unclosedOpener?_comment first, ih,
      Option.map_map, Function.comp_def]
  | literal ascii _ ih =>
    simp only [List.cons_append, unclosedOpener?_literal ascii, ih, Option.map_map,
      Function.comp_def]
  | alone alone _ ih =>
    simp only [List.cons_append, unclosedOpener?_alone alone, ih, Option.map_map,
      Function.comp_def]

theorem opener_of_unclosedOpener? {cs : List Char} (h : unclosedOpener? cs = some front) :
    ∃ body, cs = front ++ '/' :: '*' :: body ∧ ¬ ['*', '/'] <:+: body ∧
      Skipped front ('/' :: '*' :: body) := by
  -- Along the search: each case puts its own step before those that reach the opener behind it.
  fun_induction unclosedOpener? cs generalizing front with
  | case1 => cases h
  | case2 => cases h
  | case3 rest q after closes ih =>
    -- A string, from one quote to the next.
    obtain ⟨front, found, rfl⟩ := Option.map_eq_some_iff.mp h
    obtain ⟨body, rfl, unclosed, skipped⟩ := ih found
    have whole := List.takeWhile_append_dropWhile (p := fun d : Char => decide (d ≠ '"')) (l := rest)
    rw [closes] at whole
    obtain rfl : q = '"' := eq_of_dropWhile_ne closes
    exact ⟨body, by simpa using whole.symm, unclosed,
      .string (not_mem_takeWhile_ne _ _) skipped⟩
  | case4 => cases h
  | case5 c rest _ _ mark none_closes =>
    -- The opener itself.
    obtain ⟨rfl, star⟩ := mark
    obtain ⟨body, rfl⟩ := List.head?_eq_some_iff.mp star
    cases h
    exact ⟨body, rfl, splitMark?_eq_none_iff.mp none_closes, .nil⟩
  | case6 c rest _ _ mark inside after closes ih =>
    -- A comment that closes on the line.
    obtain ⟨rfl, star⟩ := mark
    obtain ⟨tail, rfl⟩ := List.head?_eq_some_iff.mp star
    obtain ⟨front, found, rfl⟩ := Option.map_eq_some_iff.mp h
    obtain ⟨body, rfl, unclosed, skipped⟩ := ih found
    obtain ⟨cut, first⟩ := splitMark?_eq_some_iff.mp closes
    refine ⟨body, ?_, unclosed, .comment first skipped⟩
    rw [List.tail_cons] at cut
    rw [cut]
    simp
  | case7 c _ x after literal _ _ ih =>
    obtain ⟨rfl, ascii⟩ := literal
    obtain ⟨front, found, rfl⟩ := Option.map_eq_some_iff.mp h
    obtain ⟨body, rfl, unclosed, skipped⟩ := ih found
    exact ⟨body, rfl, unclosed, .literal ascii skipped⟩
  | case8 c quote x after other dashes opener ih =>
    -- A character that an apostrophe follows one further on, but that starts no literal.
    obtain ⟨front, found, rfl⟩ := Option.map_eq_some_iff.mp h
    obtain ⟨body, same, unclosed, skipped⟩ := ih found
    have alone : Alone c (x :: '\'' :: after) := alone_of_not_literal quote dashes opener other
    rw [same] at alone ⊢
    exact ⟨body, rfl, unclosed, .alone alone skipped⟩
  | case9 c quote rest short dashes opener ih =>
    obtain ⟨front, found, rfl⟩ := Option.map_eq_some_iff.mp h
    obtain ⟨body, rfl, unclosed, skipped⟩ := ih found
    exact ⟨body, rfl, unclosed, .alone (alone_of_short quote dashes opener short) skipped⟩

/-- The opener found has no closer behind it, and the steps before it end there. -/
theorem unclosedOpener?_eq_some_iff {cs : List Char} :
    unclosedOpener? cs = some front ↔
      ∃ body, cs = front ++ '/' :: '*' :: body ∧ ¬ ['*', '/'] <:+: body ∧
        Skipped front ('/' :: '*' :: body) := by
  refine ⟨opener_of_unclosedOpener?, ?_⟩
  rintro ⟨body, rfl, unclosed, skipped⟩
  rw [skipped.unclosedOpener?, unclosedOpener?_openComment unclosed]
  simp

end VhdlFrontEnd.Source
