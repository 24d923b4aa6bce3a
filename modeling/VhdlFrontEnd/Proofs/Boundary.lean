import Mathlib.Data.List.Find
import Mathlib.Data.List.Infix
import VhdlFrontEnd.Proofs.Pieces

/-!
# No lexeme looks into a comment

A lexeme that ends before a comment is read alike where the line ends there, or where blanks stand in the
place of the comment (`read_alike`): no reader tells these apart by what it sees ahead.
-/

namespace VhdlFrontEnd

/-- A comment starts at the front of the text. -/
def CommentStarts (b : List Char) : Prop := ['-', '-'] <+: b ∨ ['/', '*'] <+: b

/-- The text is empty or starts with two blanks. -/
def Clear (b : List Char) : Prop := b = [] ∨ [' ', ' '] <+: b

/-- The text is empty, or two blanks or a comment stand at its front. -/
inductive Boundary : List Char → Prop where
  | lineEnd : Boundary []
  | mark {c d rest} : (c, d) ∈ [(' ', ' '), ('-', '-'), ('/', '*')] → Boundary (c :: d :: rest)

theorem Clear.boundary {b : List Char} (clear : Clear b) : Boundary b := by
  rcases clear with rfl | ⟨rest, rfl⟩
  · exact .lineEnd
  · exact .mark (by decide)

theorem CommentStarts.boundary {b : List Char} (starts : CommentStarts b) : Boundary b := by
  rcases starts with ⟨rest, rfl⟩ | ⟨rest, rfl⟩
  · exact .mark (by decide)
  · exact .mark (by decide)

theorem CommentStarts.ne_nil {b : List Char} (starts : CommentStarts b) : b ≠ [] := by
  rintro rfl
  rcases starts with ⟨rest, same⟩ | ⟨rest, same⟩ <;> exact nomatch same

namespace Boundary

variable {b : List Char}

theorem stop (boundary : Boundary b) {p : Char → Bool} (others : [' ', '-', '/'].any p = false) :
    ∀ c ∈ b.head?, p c = false := by
  intro c first
  simp only [List.any_cons, List.any_nil, Bool.or_false, Bool.or_eq_false_iff] at others
  obtain ⟨blank, dash, slash⟩ := others
  cases boundary with
  | lineEnd => exact nomatch first
  | mark mem =>
    obtain rfl := Option.some.inj first
    simp only [List.mem_cons, Prod.mk.injEq, List.not_mem_nil, or_false] at mem
    rcases mem with ⟨rfl, -⟩ | ⟨rfl, -⟩ | ⟨rfl, -⟩
    · exact blank
    · exact dash
    · exact slash

/-- What stands at the front of a text stands there also with a boundary behind it. -/
theorem any_head?_append (boundary : Boundary b) {p : Char → Bool} (others : [' ', '-', '/'].any p = false)
    (a : List Char) : (a ++ b).head?.any p = a.head?.any p := by
  cases a with
  | nil => exact Option.any_eq_false p b.head? |>.mpr (by simpa using boundary.stop others)
  | cons c a => rfl

theorem head?_append_iff (boundary : Boundary b) {q : Char} (other : [' ', '-', '/'].any (· == q) = false)
    (a : List Char) : (a ++ b).head? = some q ↔ a.head? = some q := by
  have any_iff : ∀ first : Option Char, first = some q ↔ first.any (· == q) := by
    intro first
    cases first <;> simp
  rw [any_iff, any_iff, boundary.any_head?_append other a]

theorem head?_ne (boundary : Boundary b) {q : Char} (other : [' ', '-', '/'].any (· == q) = false) :
    b.head? ≠ some q :=
  mt (boundary.head?_append_iff other []).mp nofun

end Boundary

/-- The reading, with more text behind it. -/
def Reading.behind (r : Reading) (b : List Char) : Reading := { r with rest := r.rest ++ b }

/-! ### Numbers -/

namespace Number

def Part.behind (p : Part) (b : List Char) : Part := { p with rest := p.rest ++ b }

def Exponent.behind (e : Exponent) (b : List Char) : Exponent := { e with rest := e.rest ++ b }

theorem basedFraction?_of_no_point {base : Nat} {cs : List Char} (no_point : cs.head? ≠ some '.') :
    basedFraction? base cs = none := by
  unfold basedFraction?
  split
  · exact absurd rfl no_point
  · rfl

theorem closed_of_no_mark {base : Nat} {point valid : Bool} {text cs : List Char} (no_mark : cs.head? ≠ some '#') :
    closed base point valid text cs = ⟨.dropped .missingBaseMark, text, cs⟩ := by
  unfold closed
  split
  · exact absurd rfl no_mark
  · rfl

theorem rebased_behind (base : Nat) (r : Reading) (b : List Char) :
    rebased base (r.behind b) = (rebased base r).behind b := by
  rw [rebased, rebased, Reading.behind]
  split <;> rfl

variable {b : List Char} (boundary : Boundary b) (a : List Char)

include boundary

theorem decimals_behind : decimals (a ++ b) = decimals a :=
  Source.takeWhile_append_of_stop (boundary.stop (by decide)) a

theorem afterDecimals_behind : afterDecimals (a ++ b) = afterDecimals a ++ b :=
  Source.dropWhile_append_of_stop (boundary.stop (by decide)) a

theorem startsWithDigit_behind : startsWithDigit (a ++ b) = startsWithDigit a :=
  boundary.any_head?_append (by decide) a

theorem fraction?_behind : fraction? (a ++ b) = (fraction? a).map (·.behind b) := by
  by_cases point : a.head? = some '.'
  · obtain ⟨a, rfl⟩ := List.head?_eq_some_iff.mp point
    rw [List.cons_append, fraction?, fraction?, startsWithDigit_behind boundary, decimals_behind boundary,
      afterDecimals_behind boundary]
    split <;> rfl
  · have no_fraction : ∀ {cs : List Char}, cs.head? ≠ some '.' → fraction? cs = none := by
      intro cs no_point
      refine fraction?_eq_none_of_not ?_
      rintro ⟨d, rest, rfl, -⟩
      exact no_point rfl
    rw [no_fraction point, no_fraction (mt (boundary.head?_append_iff (by decide) a).mp point)]
    rfl

theorem magnitude?_behind (front : List Char) (negative : Bool) :
    magnitude? front negative (a ++ b) = (magnitude? front negative a).map (·.behind b) := by
  rw [magnitude?, magnitude?, startsWithDigit_behind boundary, decimals_behind boundary,
    afterDecimals_behind boundary]
  split <;> rfl

theorem exponent?_of_boundary (e : Char) : exponent? (e :: b) = none := by
  rw [exponent?_eq_none_iff]
  rintro ⟨_, sign, d, rest, same, -, signed, digit⟩
  obtain ⟨rfl, rfl⟩ := List.cons.inj same
  have stops := boundary.stop (p := fun c => c.isDigit || c == '+') (by decide)
  rcases signed with rfl | rfl | rfl
  · exact absurd (stops d rfl) (by simp [digit])
  · exact absurd (stops '+' rfl) (by decide)
  · -- Behind one dash the other one stands.
    cases boundary with
    | mark mem =>
      obtain rfl : d = '-' := by simpa using mem
      exact absurd digit (by decide)

theorem exponent?_behind : exponent? (a ++ b) = (exponent? a).map (·.behind b) := by
  cases a with
  | nil =>
    have none_starts : exponent? b = none := by
      rw [exponent?_eq_none_iff]
      rintro ⟨e, sign, d, rest, rfl, letter, -⟩
      have stops := boundary.stop (p := fun c => c == 'e' || c == 'E') (by decide) e rfl
      simp only [Bool.or_eq_false_iff, beq_eq_false_iff_ne] at stops
      exact letter.elim stops.1 stops.2
    exact none_starts
  | cons e a =>
    by_cases letter : e = 'e' ∨ e = 'E'
    · cases a with
      | nil =>
        rw [exponent?_of_boundary .lineEnd]
        exact exponent?_of_boundary boundary e
      | cons c a =>
        by_cases plus : c = '+'
        · subst plus
          rw [exponent?_plus letter]
          exact (exponent?_plus letter _).trans (magnitude?_behind boundary a _ _)
        by_cases minus : c = '-'
        · subst minus
          rw [exponent?_minus letter]
          exact (exponent?_minus letter _).trans (magnitude?_behind boundary a _ _)
        rw [exponent?_unsigned letter (by simpa using plus) (by simpa using minus)]
        exact (exponent?_unsigned letter (by simpa using plus) (by simpa using minus)).trans
          (magnitude?_behind boundary (c :: a) _ _)
    · rw [List.cons_append, exponent?_of_other letter, exponent?_of_other letter]
      rfl

theorem scaled_behind (point valid : Bool) (text : List Char) :
    scaled point valid text (a ++ b) = (scaled point valid text a).behind b := by
  rw [scaled, scaled, exponent?_behind boundary]
  cases exponent? a with
  | none => cases valid <;> rfl
  | some e =>
    dsimp only [Option.map_some, Exponent.behind]
    cases e.negative && !point <;> cases valid && e.valid <;> rfl

theorem decimal_behind (digits : List Char) : decimal digits (a ++ b) = (decimal digits a).behind b := by
  rw [decimal, decimal, fraction?_behind boundary]
  cases fraction? a with
  | some f => exact scaled_behind boundary _ _ _ _
  | none =>
    dsimp only [Option.map_none]
    rw [exponent?_behind boundary, Option.isNone_map, boundary.any_head?_append (by decide),
      scaled_behind boundary]
    split
    · cases separated Char.isDigit digits <;> rfl
    · rfl

theorem extended_behind (base : Nat) : extended base (a ++ b) = (extended base a).behind b := by
  have stop := boundary.stop (p := Text.isWordChar) (by decide)
  rw [extended, extended, Source.takeWhile_append_of_stop stop, Source.dropWhile_append_of_stop stop]
  rfl

theorem basedFraction?_behind (base : Nat) :
    basedFraction? base (a ++ b) = (basedFraction? base a).map (·.behind b) := by
  by_cases point : a.head? = some '.'
  · obtain ⟨a, rfl⟩ := List.head?_eq_some_iff.mp point
    rw [List.cons_append, basedFraction?, basedFraction?, extended_behind boundary]
    rfl
  · rw [basedFraction?_of_no_point point,
      basedFraction?_of_no_point (mt (boundary.head?_append_iff (by decide) a).mp point)]
    rfl

theorem closed_behind (base : Nat) (point valid : Bool) (text : List Char) :
    closed base point valid text (a ++ b) = (closed base point valid text a).behind b := by
  by_cases mark : a.head? = some '#'
  · obtain ⟨a, rfl⟩ := List.head?_eq_some_iff.mp mark
    rw [List.cons_append, closed, closed, scaled_behind boundary, rebased_behind]
  · rw [closed_of_no_mark mark, closed_of_no_mark (mt (boundary.head?_append_iff (by decide) a).mp mark)]
    rfl

theorem based_behind (digits : List Char) : based digits (a ++ b) = (based digits a).behind b := by
  rw [based, based, extended_behind boundary]
  dsimp only [Part.behind]
  rw [basedFraction?_behind boundary]
  cases basedFraction? (baseValue digits) (extended (baseValue digits) a).rest with
  | none => exact closed_behind boundary _ _ _ _ _
  | some f => exact closed_behind boundary _ _ _ _ _

theorem read_behind : read (a ++ b) = (read a).behind b := by
  rw [read, read, afterDecimals_behind boundary, decimals_behind boundary]
  by_cases mark : (afterDecimals a).head? = some '#'
  · obtain ⟨rest, same⟩ := List.head?_eq_some_iff.mp mark
    rw [same]
    exact based_behind boundary _ _
  · have no_mark := mt (boundary.head?_append_iff (by decide) _).mp mark
    split
    · next same => exact absurd (congrArg List.head? same) no_mark
    split
    · next same => exact absurd (congrArg List.head? same) mark
    · exact decimal_behind boundary _ _

end Number

/-! ### Texts between quotes -/

/-- Whatever boundary follows the text, its reading ends before it. -/
def EndsAtBoundaries (reader : List Char → Reading) (a : List Char) : Prop :=
  ∀ b, Boundary b → reader (a ++ b) = (reader a).behind b

/-- Whatever boundary follows the text, its reading goes on into it. -/
def RunsOn (reader : List Char → Reading) (a : List Char) : Prop :=
  ∀ b, Boundary b → b ≠ [] → (reader (a ++ b)).rest.length < b.length

namespace Quoted

variable {q : Char} {a b body rest : List Char}

theorem upToClose?_append_of_closed (closes : upToClose? q a = some (body, rest)) (other : b.head? ≠ some q) :
    upToClose? q (a ++ b) = some (body, rest ++ b) := by
  fun_induction upToClose? q a generalizing body rest with
  | case1 => cases closes
  | case2 =>
    cases closes
    cases b with
    | nil => simp [upToClose?]
    | cons d b =>
      have no_mark : d ≠ q := by simpa using other
      simp [upToClose?, no_mark]
  | case3 a ih =>
    obtain ⟨⟨inner, after⟩, found, same⟩ := Option.map_eq_some_iff.mp closes
    cases same
    simp [upToClose?, ih found]
  | case4 d a no_mark =>
    cases closes
    simp [upToClose?, no_mark]
  | case5 c a no_mark ih =>
    obtain ⟨⟨inner, after⟩, found, same⟩ := Option.map_eq_some_iff.mp closes
    cases same
    rw [List.cons_append, upToClose?.eq_def]
    simp [no_mark, ih found]

theorem length_lt_of_upToClose?_append (unclosed : upToClose? q a = none)
    (closes : upToClose? q (a ++ b) = some (body, rest)) : rest.length < b.length := by
  fun_induction upToClose? q a generalizing body with
  | case1 =>
    obtain ⟨inner, rfl, -, -⟩ := paired_of_upToClose? closes
    have whole : (inner ++ [q]) ++ rest = b := upToClose?_append closes
    rw [← whole]
    simp
    omega
  | case2 => cases unclosed
  | case3 a ih =>
    simp only [List.cons_append, upToClose?, if_true] at closes
    obtain ⟨⟨inner, after⟩, found, same⟩ := Option.map_eq_some_iff.mp closes
    cases same
    exact ih (Option.map_eq_none_iff.mp unclosed) found
  | case4 => cases unclosed
  | case5 c a no_mark ih =>
    rw [List.cons_append, upToClose?.eq_def] at closes
    simp only [no_mark, if_false] at closes
    obtain ⟨⟨inner, after⟩, found, same⟩ := Option.map_eq_some_iff.mp closes
    cases same
    exact ih (Option.map_eq_none_iff.mp unclosed) found

theorem string_ends_or_runsOn (a : List Char) : EndsAtBoundaries string a ∨ RunsOn string a := by
  cases found : upToClose? '"' a with
  | some parts =>
    refine Or.inl fun b boundary => ?_
    rw [string, string, upToClose?_append_of_closed found (boundary.head?_ne (by decide)), found]
    rfl
  | none =>
    refine Or.inr fun b _ nonempty => ?_
    unfold string
    split
    · next closes => exact length_lt_of_upToClose?_append found closes
    · exact List.length_pos_iff.mpr nonempty

theorem extended_ends_or_runsOn (a : List Char) : EndsAtBoundaries extended a ∨ RunsOn extended a := by
  cases found : upToClose? '\\' a with
  | some parts =>
    refine Or.inl fun b boundary => ?_
    rw [extended, extended, upToClose?_append_of_closed found (boundary.head?_ne (by decide)), found]
    dsimp only
    split <;> rfl
  | none =>
    refine Or.inr fun b _ nonempty => ?_
    unfold extended
    split
    · next closes =>
      have shorter := length_lt_of_upToClose?_append found closes
      split <;> exact shorter
    · exact List.length_pos_iff.mpr nonempty

theorem bitString_ends_or_runsOn (specifier a : List Char) :
    EndsAtBoundaries (bitString specifier) a ∨ RunsOn (bitString specifier) a := by
  cases found : a.dropWhile (· ≠ '"') with
  | cons q after =>
    refine Or.inl fun b _ => ?_
    have inside : (a.takeWhile (· ≠ '"')).length ≠ a.length := by
      have whole := congrArg List.length (List.takeWhile_append_dropWhile (p := (· ≠ '"')) (l := a))
      rw [found, List.length_append, List.length_cons] at whole
      omega
    have same_body : (a ++ b).takeWhile (· ≠ '"') = a.takeWhile (· ≠ '"') := by
      rw [List.takeWhile_append, if_neg inside]
    have same_quote : (a ++ b).dropWhile (· ≠ '"') = q :: (after ++ b) := by
      rw [List.dropWhile_append, found]
      rfl
    rw [bitString, bitString, same_body, same_quote, found]
    dsimp only
    split <;> rfl
  | nil =>
    refine Or.inr fun b _ nonempty => ?_
    have behind : (a ++ b).dropWhile (· ≠ '"') = b.dropWhile (· ≠ '"') := by
      rw [List.dropWhile_append, found]
      rfl
    have shorter := (List.dropWhile_suffix (p := (· ≠ '"')) (l := b)).length_le
    rw [bitString, behind]
    dsimp only
    split
    · exact List.length_pos_iff.mpr nonempty
    · next q after closes =>
      rw [closes] at shorter
      split <;> exact shorter

end Quoted

/-! ### Words, apostrophes and symbols -/

namespace Lookahead

/-- No text that is looked for goes on into a boundary, but for the slash behind a star. -/
theorem apart_of_mem {c : Char} {l : Lookahead} (mem : (c, l) ∈ table) {x : String × Symbol} (listed : x ∈ l.more)
    {t b : List Char} (behind : t <:+ x.1.toList) (nonempty : t ≠ []) (boundary : Boundary b) (goes_on : t <+: b) :
    c = '*' ∧ x.1.toList = ['/'] ∧ t = ['/'] := by
  have each : ∀ entry ∈ table, ∀ x ∈ entry.2.more, ∀ t ∈ x.1.toList.tails, t ≠ [] →
      (entry.1 = '*' ∧ x.1.toList = ['/'] ∧ t = ['/']) ∨
        t.length ≤ 2 ∧ ∀ m ∈ [(' ', ' '), ('-', '-'), ('/', '*')], ¬ t <+: [m.1, m.2] := by
    decide +kernel
  rcases each (c, l) mem x listed t ((List.mem_tails _ _).mpr behind) nonempty with star | ⟨short, others⟩
  · exact star
  · cases boundary with
    | lineEnd => exact absurd (List.prefix_nil.mp goes_on) nonempty
    | @mark d e rest marked =>
      have front : [d, e] <+: d :: e :: rest := ⟨rest, rfl⟩
      exact absurd (List.prefix_of_prefix_length_le goes_on front short) (others (d, e) marked)

theorem find_behind {c : Char} {l : Lookahead} (mem : (c, l) ∈ table) {a b : List Char} (boundary : Boundary b)
    (apart : ¬ (c = '*' ∧ a = [] ∧ b.head? = some '/')) : l.find (a ++ b) = l.find a := by
  have alike : ∀ x ∈ l.more, x.1.toList.isPrefixOf (a ++ b) = x.1.toList.isPrefixOf a := by
    intro x listed
    rw [Bool.eq_iff_iff, List.isPrefixOf_iff_prefix, List.isPrefixOf_iff_prefix]
    refine ⟨fun stands => ?_, fun stands => stands.trans (List.prefix_append a b)⟩
    rcases List.prefix_or_prefix_of_prefix stands (List.prefix_append a b) with here | ⟨t, cut⟩
    · exact here
    · by_cases empty : t = []
      · rw [empty, List.append_nil] at cut
        exact cut ▸ List.prefix_rfl
      · rw [← cut, List.prefix_append_right_inj] at stands
        obtain ⟨star, text, rfl⟩ := apart_of_mem mem listed ⟨a, cut⟩ empty boundary stands
        rw [text] at cut
        have alone : a = [] := by simpa using cut
        obtain ⟨rest, rfl⟩ := stands
        exact absurd ⟨star, alone, rfl⟩ apart
  rw [find, find, List.find?_congr alike]

end Lookahead

namespace Lexeme

variable {a b : List Char}

theorem symbol_behind {c : Char} (boundary : Boundary b) (apart : ¬ (c = '*' ∧ a = [] ∧ b.head? = some '/')) :
    symbol c (a ++ b) = (symbol c a).behind b := by
  unfold symbol
  cases known : Lookahead.of? c with
  | none => rfl
  | some l =>
    have taken := (Lookahead.spelling_find known a).2.length_le
    dsimp only
    rw [Lookahead.find_behind (Lookahead.mem_of_of? known) boundary apart, List.drop_append_of_le_length taken]
    rfl

theorem apostrophe_of_no_quote {cs : List Char} (no_quote : ∀ c more, cs ≠ c :: '\'' :: more) (afterName : Bool) :
    apostrophe afterName cs = ⟨.token (.symbol .tick), ['\''], cs⟩ := by
  unfold apostrophe
  split
  · exact absurd rfl (no_quote _ _)
  · rfl

theorem apostrophe_behind (boundary : Boundary b) (afterName : Bool) (a : List Char) :
    apostrophe afterName (a ++ b) = (apostrophe afterName a).behind b := by
  by_cases quote : ∃ c more, a = c :: '\'' :: more
  · obtain ⟨c, more, rfl⟩ := quote
    rw [List.cons_append, List.cons_append, apostrophe, apostrophe]
    split <;> rfl
  · have no_quote : ∀ c more, a ≠ c :: '\'' :: more := fun c more same => quote ⟨c, more, same⟩
    have no_quote_behind : ∀ c more, a ++ b ≠ c :: '\'' :: more := by
      intro c more same
      rcases a with _ | ⟨d, _ | ⟨e, a⟩⟩
      · cases boundary with
        | lineEnd => cases same
        | @mark _ d rest mem =>
          obtain ⟨rfl, rest⟩ := List.cons.inj same
          obtain rfl := (List.cons.inj rest).1
          exact absurd mem (by simp)
      · exact boundary.head?_ne (q := '\'') (by decide) (congrArg List.head? (List.cons.inj same).2)
      · obtain ⟨rfl, rest⟩ := List.cons.inj same
        obtain rfl := (List.cons.inj rest).1
        exact no_quote _ _ rfl
    rw [apostrophe_of_no_quote no_quote, apostrophe_of_no_quote no_quote_behind]
    rfl

theorem plainWord_behind (text rest b : List Char) :
    plainWord text (rest ++ b) = (plainWord text rest).behind b := by
  rw [plainWord, plainWord]
  repeat' split
  all_goals rfl

theorem word_ends_or_runsOn (a : List Char) : EndsAtBoundaries word a ∨ RunsOn word a := by
  have same_word : ∀ {b}, Boundary b → (a ++ b).takeWhile Text.isWordChar = a.takeWhile Text.isWordChar ∧
      (a ++ b).dropWhile Text.isWordChar = a.dropWhile Text.isWordChar ++ b := fun boundary =>
    ⟨Source.takeWhile_append_of_stop (boundary.stop (by decide)) a,
      Source.dropWhile_append_of_stop (boundary.stop (by decide)) a⟩
  by_cases quote : (a.dropWhile Text.isWordChar).head? = some '"'
  · obtain ⟨rest, found⟩ := List.head?_eq_some_iff.mp quote
    have word_behind : ∀ {b}, Boundary b → word (a ++ b) =
        if Quoted.isSpecifier (a.takeWhile Text.isWordChar)
          then Quoted.bitString (a.takeWhile Text.isWordChar) (rest ++ b)
          else plainWord (a.takeWhile Text.isWordChar) ('"' :: (rest ++ b)) := by
      intro b boundary
      obtain ⟨taken, dropped⟩ := same_word boundary
      rw [found, List.cons_append] at dropped
      rw [word_of_quote dropped, taken]
    by_cases specified : Quoted.isSpecifier (a.takeWhile Text.isWordChar)
    · rcases Quoted.bitString_ends_or_runsOn (a.takeWhile Text.isWordChar) rest with ends | runs
      · refine Or.inl fun b boundary => ?_
        rw [word_behind boundary, word_of_quote found, if_pos specified, if_pos specified]
        exact ends b boundary
      · refine Or.inr fun b boundary nonempty => ?_
        rw [word_behind boundary, if_pos specified]
        exact runs b boundary nonempty
    · refine Or.inl fun b boundary => ?_
      rw [word_behind boundary, word_of_quote found, if_neg specified, if_neg specified]
      exact plainWord_behind _ ('"' :: rest) b
  · refine Or.inl fun b boundary => ?_
    obtain ⟨taken, dropped⟩ := same_word boundary
    have other : ((a ++ b).dropWhile Text.isWordChar).head? ≠ some '"' := by
      rw [dropped]
      exact mt (boundary.head?_append_iff (by decide) _).mp quote
    rw [word_of_other other, word_of_other quote, taken, dropped]
    exact plainWord_behind _ _ b

variable {previous? : Option TokenKind} {c : Char} {a b b' : List Char}

/-- A lexeme that ends before a comment is read alike without the comment. -/
theorem read_alike (opens : CommentStarts b) (inside : b.length ≤ (read previous? c (a ++ b)).rest.length)
    (clear : Clear b') :
    read previous? c (a ++ b) = (read previous? c a).behind b ∧
      read previous? c (a ++ b') = (read previous? c a).behind b' := by
  have alike : ∀ {reader : List Char → Reading} {a}, EndsAtBoundaries reader a ∨ RunsOn reader a →
      b.length ≤ (reader (a ++ b)).rest.length →
      reader (a ++ b) = (reader a).behind b ∧ reader (a ++ b') = (reader a).behind b' := by
    rintro reader a (ends | runs) inside
    · exact ⟨ends b opens.boundary, ends b' clear.boundary⟩
    · exact absurd (runs b opens.boundary opens.ne_nil) (Nat.not_lt.mpr inside)
  unfold read at inside ⊢
  split at inside
  · next apostrophe =>
    simp only [if_pos apostrophe]
    exact ⟨apostrophe_behind opens.boundary _ a, apostrophe_behind clear.boundary _ a⟩
  next apostrophe =>
  split at inside
  · next quote =>
    simp only [if_neg apostrophe, if_pos quote]
    exact alike (Quoted.string_ends_or_runsOn a) inside
  next quote =>
  split at inside
  · next backslash =>
    simp only [if_neg apostrophe, if_neg quote, if_pos backslash]
    exact alike (Quoted.extended_ends_or_runsOn a) inside
  next backslash =>
  split at inside
  · next digit =>
    simp only [if_neg apostrophe, if_neg quote, if_neg backslash, if_pos digit]
    exact ⟨Number.read_behind opens.boundary (c :: a), Number.read_behind clear.boundary (c :: a)⟩
  next digit =>
  split at inside
  · next starts =>
    simp only [if_neg apostrophe, if_neg quote, if_neg backslash, if_neg digit, if_pos starts]
    exact alike (word_ends_or_runsOn (c :: a)) inside
  next starts =>
  simp only [if_neg apostrophe, if_neg quote, if_neg backslash, if_neg digit, if_neg starts]
  constructor
  · refine symbol_behind opens.boundary ?_
    rintro ⟨rfl, rfl, slash⟩
    obtain ⟨more, rfl⟩ := List.head?_eq_some_iff.mp slash
    -- A star is read with the slash of the opener behind it.
    have closer : symbol '*' ('/' :: more) = ⟨.token (.symbol .blockCommentEnd), ['*', '/'], more⟩ := rfl
    rw [List.nil_append, closer, List.length_cons] at inside
    exact absurd inside (Nat.not_succ_le_self _)
  · refine symbol_behind clear.boundary ?_
    rintro ⟨-, -, slash⟩
    rcases clear with rfl | ⟨rest, rfl⟩ <;> exact nomatch slash

end Lexeme

/-! ### Pieces -/

namespace Piece

variable {previous? : Option TokenKind} {c : Char} {a b b' body rest : List Char} {p : Piece}

theorem first_blockComment (first_closer : ¬ ['*', '/'] <:+: body ++ ['*']) (rest : List Char) :
    first previous? '/' ('*' :: (body ++ '*' :: '/' :: rest)) =
      (⟨.blockComment, '/' :: '*' :: body ++ ['*', '/']⟩, rest) := by
  have closes : Source.splitCloser? (body ++ '*' :: '/' :: rest) = some (body, rest) :=
    Source.splitMark?_eq_some_iff.mpr ⟨rfl, first_closer⟩
  rw [first, if_neg (by decide), comment?, closes]

/-- No comment starts right before what follows a lexeme, be it clear or a comment. -/
theorem comment?_of_clear (none_starts : comment? (c :: (a ++ b)) = none) (clear : Clear b') :
    comment? (c :: (a ++ b')) = none := by
  rw [comment?_eq_none_iff, Source.pair_prefix_cons, Source.pair_prefix_cons] at none_starts ⊢
  cases a with
  | nil => rcases clear with rfl | ⟨rest, rfl⟩ <;> simp
  | cons d a => exact none_starts

/-- A piece that ends before a comment and is no run of blanks is cut off alike without the comment. -/
theorem first_alike (opens : CommentStarts b) (clear : Clear b')
    (cut : first previous? c (a ++ b) = (p, rest ++ b)) (ink : p.sort ≠ .blanks) :
    first previous? c (a ++ b') = (p, rest ++ b') := by
  have no_end : rest ++ b ≠ [] := List.append_ne_nil_of_right_ne_nil _ opens.ne_nil
  have blank : ¬ Text.isBlank c := by
    intro blank
    rw [first, if_pos blank] at cut
    obtain ⟨rfl, -⟩ := Prod.mk.inj cut
    exact ink rfl
  rcases first_cases previous? c (a ++ b) with gap | ⟨none_starts, same⟩
  · have whole := first_append previous? c (a ++ b)
    rw [cut] at gap whole
    obtain ⟨sort, text⟩ := p
    dsimp only at gap whole ink
    generalize behind : rest ++ b = after at gap no_end
    cases gap with
    | blanks => exact absurd rfl ink
    | lineComment => exact absurd rfl no_end
    | openComment => exact absurd rfl no_end
    | @blockComment body after first_closer =>
      have front : '/' :: '*' :: (body ++ '*' :: '/' :: rest) ++ b = c :: a ++ b := by simpa using whole
      obtain ⟨rfl, rfl⟩ := List.cons.inj (List.append_cancel_right front)
      rw [List.cons_append, List.append_assoc, List.cons_append, List.cons_append]
      exact first_blockComment first_closer _
  · rw [same] at cut
    obtain ⟨rfl, behind⟩ := Prod.mk.inj cut
    have inside : b.length ≤ (Lexeme.read previous? c (a ++ b)).rest.length := by
      rw [behind, List.length_append]
      exact Nat.le_add_left _ _
    obtain ⟨before, without⟩ := Lexeme.read_alike opens inside clear
    have same_rest : (Lexeme.read previous? c a).rest = rest := by
      rw [before] at behind
      exact List.append_cancel_right behind
    rw [first, if_neg blank, comment?_of_clear none_starts clear, without, before, Reading.behind, Reading.behind,
      same_rest]

/-- One step of the cutting of a line up to a comment. -/
theorem pieces_alike {qs : List Piece} (opens : CommentStarts b) (clear : Clear b')
    (cut : pieces previous? (p.text ++ (rest ++ b)) = p :: qs) (ink : p.sort ≠ .blanks) :
    pieces previous? (p.text ++ (rest ++ b')) = p :: pieces (previousAfter previous? p) (rest ++ b') := by
  have nonempty : p.text ≠ [] := ne_nil_of_pieces (cut.trans (List.nil_append _).symm)
  obtain ⟨c, more, text⟩ := List.exists_cons_of_ne_nil nonempty
  have whole := texts_pieces previous? (p.text ++ (rest ++ b))
  rw [cut, texts_cons] at whole
  have behind : texts qs = rest ++ b := List.append_cancel_left whole
  rw [text, List.cons_append] at cut ⊢
  obtain ⟨d, after, split, found, -⟩ := pieces_eq_cons cut
  obtain ⟨rfl, rfl⟩ := List.cons.inj split
  rw [behind, ← List.append_assoc] at found
  rw [pieces_cons, ← List.append_assoc, first_alike opens clear found ink]

end Piece

end VhdlFrontEnd
