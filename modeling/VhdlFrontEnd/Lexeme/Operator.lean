import VhdlFrontEnd.Token.Symbol

/-!
# Looking ahead for a symbol

The first character of a symbol says which texts to look for behind it, one after the other. Main
statement: what is found this way is the longest symbol at the front of the text (`longest?_of_find`).
-/

namespace VhdlFrontEnd

/-- The symbols that start with one character: those with more behind it, in the order in which they
are looked for, and the one that the character is alone. -/
structure Lookahead where
  more : List (String × Symbol) := []
  alone : Symbol
deriving DecidableEq, Repr, Inhabited

namespace Lookahead

/-- The characters that start symbols, but for the apostrophe. -/
def table : List (Char × Lookahead) := [
  ('(', { alone := .leftParen }),
  (')', { alone := .rightParen }),
  (']', { alone := .rightBracket }),
  ('\x7b', { alone := .leftBrace }),
  ('\x7d', { alone := .rightBrace }),
  (';', { alone := .semicolon }),
  (',', { alone := .comma }),
  ('.', { alone := .dot }),
  ('+', { alone := .plus }),
  ('^', { alone := .caret }),
  ('@', { alone := .at }),
  ('!', { alone := .bang }),
  ('[', { alone := .leftBracket, more := [("*", .leftBracketStar), ("+]", .leftBracketPlus),
    ("->", .leftBracketArrow), ("=", .leftBracketEqual)] }),
  (':', { alone := .colon, more := [("=", .assign)] }),
  ('=', { alone := .equal, more := [(">", .arrow)] }),
  ('<', { alone := .less, more := [("->", .leftRightArrow), ("=", .lessEqual), (">", .box),
    ("<", .doubleLess)] }),
  ('>', { alone := .greater, more := [("=", .greaterEqual), (">", .doubleGreater)] }),
  ('/', { alone := .slash, more := [("=", .notEqual)] }),
  ('*', { alone := .star, more := [("*", .doubleStar), ("/", .blockCommentEnd)] }),
  ('&', { alone := .ampersand, more := [("&", .doubleAmpersand)] }),
  ('|', { alone := .bar, more := [("->", .barArrow), ("=>", .barDoubleArrow), ("|", .doubleBar)] }),
  ('-', { alone := .minus, more := [(">", .rightArrow)] }),
  ('?', { alone := .question, more := [("?", .condition), ("=", .matchEqual), ("/=", .matchNotEqual),
    ("<=", .matchLessEqual), ("<", .matchLess), (">=", .matchGreaterEqual), (">", .matchGreater)] })]

def of? (c : Char) : Option Lookahead := table.lookup c

/-- The text that is taken behind the character, and the symbol that both make: the first text of the
list that stands there decides. -/
def find (l : Lookahead) (rest : List Char) : List Char × Symbol :=
  match l.more.find? (·.1.toList.isPrefixOf rest) with
  | some (text, s) => (text.toList, s)
  | none => ([], l.alone)

/-- The symbols that start with the character, each with the text behind it. -/
def symbols (l : Lookahead) : List (String × Symbol) := ("", l.alone) :: l.more

theorem mem_of_of? {c : Char} {l : Lookahead} (known : of? c = some l) : (c, l) ∈ table := by
  obtain ⟨before, after, split, -⟩ := List.lookup_eq_some_iff.mp known
  exact split ▸ List.mem_append_right before List.mem_cons_self

/-! ### The table -/

theorem spelled_of_mem {c : Char} {l : Lookahead} (mem : (c, l) ∈ table) :
    ∀ x ∈ l.symbols, x.2.spelling.toList = c :: x.1.toList := by
  have each : ∀ entry ∈ table, ∀ x ∈ entry.2.symbols, x.2.spelling.toList = entry.1 :: x.1.toList := by
    decide +kernel
  exact each (c, l) mem

/-- No text is looked for behind one that it goes on from. -/
theorem ordered_of_mem {c : Char} {l : Lookahead} (mem : (c, l) ∈ table) :
    l.more.Pairwise fun x y => ¬ x.1.toList <+: y.1.toList := by
  have each : ∀ entry ∈ table, entry.2.more.Pairwise fun x y => ¬ x.1.toList <+: y.1.toList := by
    decide +kernel
  exact each (c, l) mem

/-- Only the apostrophe and the comment opener are not in the table. -/
theorem complete (s : Symbol) : s = .tick ∨ s = .blockCommentStart ∨
    ∃ c l, of? c = some l ∧ ∃ x ∈ l.symbols, x.2 = s := by
  have each : ∀ s ∈ Symbol.all, s = .tick ∨ s = .blockCommentStart ∨
      ∃ entry ∈ table, of? entry.1 = some entry.2 ∧ ∃ x ∈ entry.2.symbols, x.2 = s := by
    decide +kernel
  rcases each s (Symbol.mem_all s) with tick | opener | ⟨entry, -, found, x, mem, same⟩
  · exact Or.inl tick
  · exact Or.inr (Or.inl opener)
  · exact Or.inr (Or.inr ⟨entry.1, entry.2, found, x, mem, same⟩)

/-! ### What is found -/

theorem find_eq (l : Lookahead) (rest : List Char) :
    (∃ before x after, l.more = before ++ x :: after ∧ l.find rest = (x.1.toList, x.2) ∧
      x.1.toList <+: rest ∧ ∀ y ∈ before, ¬ y.1.toList <+: rest) ∨
    (l.find rest = ([], l.alone) ∧ ∀ y ∈ l.more, ¬ y.1.toList <+: rest) := by
  unfold find
  split
  · next text s found =>
    obtain ⟨stands, before, after, split, others⟩ := List.find?_eq_some_iff_append.mp found
    refine Or.inl ⟨before, (text, s), after, split, rfl, List.isPrefixOf_iff_prefix.mp stands, ?_⟩
    intro y mem stands
    have absent := others y mem
    rw [List.isPrefixOf_iff_prefix.mpr stands] at absent
    exact nomatch absent
  · next absent =>
    refine Or.inr ⟨rfl, fun y mem stands => ?_⟩
    exact List.find?_eq_none.mp absent y mem (List.isPrefixOf_iff_prefix.mpr stands)

theorem find_mem (l : Lookahead) (rest : List Char) :
    ∃ x ∈ l.symbols, l.find rest = (x.1.toList, x.2) ∧ x.1.toList <+: rest := by
  rcases find_eq l rest with ⟨before, x, after, split, found, stands, -⟩ | ⟨found, -⟩
  · refine ⟨x, List.mem_cons_of_mem _ ?_, found, stands⟩
    rw [split]
    exact List.mem_append_right before List.mem_cons_self
  · exact ⟨("", l.alone), List.mem_cons_self, found, List.nil_prefix⟩

/-- No symbol of the list that stands at the front is longer than the one that is found. -/
theorem length_le_find {c : Char} {l : Lookahead} (mem : (c, l) ∈ table) {rest : List Char}
    {x : String × Symbol} (listed : x ∈ l.symbols) (stands : x.1.toList <+: rest) :
    x.1.toList.length ≤ (l.find rest).1.length := by
  rcases List.mem_cons.mp listed with rfl | listed
  · exact Nat.zero_le _
  rcases find_eq l rest with ⟨before, first, after, split, found, here, others⟩ | ⟨-, none_stands⟩
  · rw [found]
    have ordered := ordered_of_mem mem
    rw [split] at listed ordered
    rcases List.mem_append.mp listed with earlier | later
    · exact absurd stands (others x earlier)
    · rcases List.mem_cons.mp later with rfl | later
      · exact Nat.le_refl _
      · -- Both texts stand at the front, so one goes on from the other; the later one cannot.
        have behind := (List.pairwise_append.mp ordered).2.1
        have not_longer := (List.pairwise_cons.mp behind).1 x later
        refine Nat.le_of_not_lt fun longer => ?_
        exact not_longer (List.prefix_of_prefix_length_le here stands (Nat.le_of_lt longer))
  · exact absurd stands (none_stands x listed)

variable {c : Char} {l : Lookahead} {rest : List Char}

theorem spelling_find (known : of? c = some l) (rest : List Char) :
    (l.find rest).2.spelling.toList = c :: (l.find rest).1 ∧ (l.find rest).1 <+: rest := by
  obtain ⟨x, listed, found, stands⟩ := find_mem l rest
  rw [found]
  exact ⟨spelled_of_mem (mem_of_of? known) x listed, stands⟩

/-- Unless a comment starts here, what is found is the longest symbol at the front of the text. -/
theorem longest?_of_find (known : of? c = some l) (no_opener : ¬ (c = '/' ∧ rest.head? = some '*')) :
    Symbol.longest? (c :: rest) = some (l.find rest).2 := by
  obtain ⟨spelled, stands⟩ := spelling_find known rest
  refine Symbol.longest?_of_front ?_ fun t front => ?_
  · rw [spelled]
    exact List.cons_prefix_cons.mpr ⟨rfl, stands⟩
  · rcases complete t with rfl | rfl | ⟨d, other, found, x, listed, rfl⟩
    · obtain ⟨rfl, -⟩ := List.cons_prefix_cons.mp front
      exact nomatch known
    · obtain ⟨rfl, star⟩ := List.cons_prefix_cons.mp front
      obtain ⟨after, rfl⟩ := star
      exact absurd ⟨rfl, rfl⟩ no_opener
    · rw [spelled_of_mem (mem_of_of? found) x listed] at front ⊢
      obtain ⟨rfl, behind⟩ := List.cons_prefix_cons.mp front
      obtain rfl := Option.some.inj (known.symm.trans found)
      rw [spelled]
      exact Nat.succ_le_succ (length_le_find (mem_of_of? known) listed behind)

theorem longest?_of_unknown (unknown : of? c = none) (quote : c ≠ '\'') (rest : List Char) :
    Symbol.longest? (c :: rest) = none := by
  refine Symbol.longest?_eq_none.mpr fun t front => ?_
  rcases complete t with rfl | rfl | ⟨d, other, found, x, listed, rfl⟩
  · exact quote (List.cons_prefix_cons.mp front).1.symm
  · obtain ⟨rfl, -⟩ := List.cons_prefix_cons.mp front
    exact nomatch unknown
  · rw [spelled_of_mem (mem_of_of? found) x listed] at front
    obtain ⟨rfl, -⟩ := List.cons_prefix_cons.mp front
    exact nomatch unknown.symm.trans found

theorem longest?_apostrophe (rest : List Char) : Symbol.longest? ('\'' :: rest) = some .tick := by
  refine Symbol.longest?_of_front ⟨rest, rfl⟩ fun t front => ?_
  rcases complete t with rfl | rfl | ⟨d, other, found, x, listed, rfl⟩
  · exact Nat.le_refl _
  · exact absurd (List.cons_prefix_cons.mp front).1 (by decide)
  · rw [spelled_of_mem (mem_of_of? found) x listed] at front
    obtain ⟨rfl, -⟩ := List.cons_prefix_cons.mp front
    exact nomatch found

end Lookahead

end VhdlFrontEnd
