import VhdlFrontEnd.Proofs.LongestMatch

/-!
# Numbers are read by their grammar

`read_literal` is the converse of `read_outcome`: a literal is read to its end as a token, unless what
follows goes on with it. `numbers_by_grammar` says both of the scan of a line.
-/

namespace VhdlFrontEnd

namespace Number

variable {digit : Char → Bool} {cs ds es text rest : List Char} {point negative : Bool}

/-! ### Runs of digits before other text -/

theorem mem_digitRun (run : DigitRun digit cs) : ∀ c ∈ cs, digit c ∨ c = '_' := by
  induction run with
  | one first => exact List.forall_mem_singleton.mpr (Or.inl first)
  | more first _ ih => exact List.forall_mem_cons.mpr ⟨Or.inl first, ih⟩
  | spaced first _ ih =>
    exact List.forall_mem_cons.mpr ⟨Or.inl first, List.forall_mem_cons.mpr ⟨Or.inr rfl, ih⟩⟩

theorem exists_first_of_digitRun (run : DigitRun digit cs) : ∃ c more, cs = c :: more ∧ digit c := by
  cases run with
  | one first => exact ⟨_, _, rfl, first⟩
  | more first _ => exact ⟨_, _, rfl, first⟩
  | spaced first _ => exact ⟨_, _, rfl, first⟩

theorem exists_last_of_digitRun (run : DigitRun digit cs) : ∃ c, cs.getLast? = some c ∧ digit c := by
  have behind : ∀ {d cs}, DigitRun digit cs → (d :: cs).getLast? = cs.getLast? := by
    intro d cs run
    obtain ⟨c, more, rfl, -⟩ := exists_first_of_digitRun run
    exact List.getLast?_cons_cons
  induction run with
  | one first => exact ⟨_, rfl, first⟩
  | more _ run ih => rwa [behind run]
  | spaced _ run ih => rwa [List.getLast?_cons_cons, behind run]

/-- A text that ends in decimals does not end in a mark. -/
theorem getLast?_append_decimals (run : Decimals ds) (front : List Char) :
    (front ++ ds).getLast? ≠ some '#' := by
  intro mark
  obtain ⟨c, last, isDigit⟩ := exists_last_of_digitRun run
  rw [List.getLast?_append, last] at mark
  obtain rfl : c = '#' := Option.some.inj mark
  exact absurd isDigit (by decide)

theorem startsWithDigit_append (run : Decimals ds) (rest : List Char) : startsWithDigit (ds ++ rest) := by
  obtain ⟨c, more, rfl, isDigit⟩ := exists_first_of_digitRun run
  exact startsWithDigit_iff.mpr ⟨c, more ++ rest, rfl, isDigit⟩

theorem decimals_append_of_ends (run : Decimals ds) (ends : RunEnds rest) :
    decimals (ds ++ rest) = ds ∧ afterDecimals (ds ++ rest) = rest := by
  have inside : ∀ c ∈ ds, isDigitOrUnderscore c = true := by
    intro c mem
    rcases mem_digitRun run c mem with isDigit | rfl
    · simp [isDigitOrUnderscore, isDigit]
    · rfl
  constructor
  · rw [decimals, Source.takeWhile_append_of_stop ends, List.takeWhile_eq_self_iff]
    exact inside
  · rw [afterDecimals, Source.dropWhile_append_of_stop ends, List.dropWhile_eq_nil_iff.mpr inside]
    rfl

theorem isAlpha_iff_toNat {c : Char} :
    c.isAlpha ↔ 65 ≤ c.toNat ∧ c.toNat ≤ 90 ∨ 97 ≤ c.toNat ∧ c.toNat ≤ 122 := by
  have unfolded : c.isAlpha = (decide ('A'.val ≤ c.val ∧ c.val ≤ 'Z'.val) ||
      decide ('a'.val ≤ c.val) && decide (c.val ≤ 'z'.val)) := rfl
  rw [unfolded, Bool.or_eq_true, Bool.and_eq_true, decide_eq_true_iff, decide_eq_true_iff, decide_eq_true_iff]
  exact Iff.rfl

theorem isDigit_of_isAlpha {c : Char} (letter : c.isAlpha) : c.isDigit = false := by
  rw [isAlpha_iff_toNat] at letter
  rw [← Bool.not_eq_true, Char.isDigit_iff_toNat]
  have nine : '9'.toNat = 57 := rfl
  omega

theorem isWordChar_of_isDigitIn {base : Nat} {c : Char} (h : Text.isDigitIn base c) : Text.isWordChar c := by
  rw [Text.isDigitIn, Bool.and_eq_true, Option.any_eq_true] at h
  obtain ⟨-, value, found, -⟩ := h
  have letter : c.isAlpha ∨ c.isDigit := by
    unfold Text.digitValue? at found
    -- The digits from ten on are the first letters of their case.
    simp only [Char.le_def, UInt32.le_iff_toNat_le, Bool.and_eq_true, decide_eq_true_eq] at found
    have small : 'a'.val.toNat = 97 ∧ 'f'.val.toNat = 102 := by decide
    have capital : 'A'.val.toNat = 65 ∧ 'F'.val.toNat = 70 := by decide
    have value : c.val.toNat = c.toNat := rfl
    rw [isAlpha_iff_toNat]
    split at found
    · next digit => exact Or.inr digit
    split at found
    · omega
    split at found
    · omega
    · cases found
  rw [Text.isWordChar, Char.isAlphanum]
  rcases letter with letter | digit
  · simp [letter]
  · simp [digit]

theorem extended_append_of_ends {base : Nat} (run : DigitRun (Text.isDigitIn base) ds) (ends : WordEnds rest) :
    extended base (ds ++ rest) = ⟨ds, true, rest⟩ := by
  have stop : ∀ c ∈ rest.head?, Text.isWordChar c = false := fun c first => by simpa using ends c first
  have inside : ∀ c ∈ ds, Text.isWordChar c = true := by
    intro c mem
    rcases mem_digitRun run c mem with isDigit | rfl
    · exact isWordChar_of_isDigitIn isDigit
    · rfl
  rw [extended, Source.takeWhile_append_of_stop stop, Source.dropWhile_append_of_stop stop,
    List.takeWhile_eq_self_iff.mpr inside, List.dropWhile_eq_nil_iff.mpr inside,
    separated_digits_iff.mpr run]
  rfl

/-! ### Exponents -/

theorem magnitude?_append_of_ends (run : Decimals ds) (ends : RunEnds rest) (front : List Char) :
    magnitude? front negative (ds ++ rest) = some ⟨⟨front ++ ds, true, rest⟩, negative⟩ := by
  obtain ⟨text, after⟩ := decimals_append_of_ends run ends
  rw [magnitude?, if_pos (startsWithDigit_append run rest), text, after, separated_decimals_iff.mpr run]

theorem exponent?_append_of_ends (exponent : ExponentText negative es) (ends : RunEnds rest) :
    exponent? (es ++ rest) = some ⟨⟨es, true, rest⟩, negative⟩ := by
  cases exponent with
  | @plain e ds letter run =>
    obtain ⟨c, more, rfl, isDigit⟩ := exists_first_of_digitRun run
    have unsigned : c ≠ '+' ∧ c ≠ '-' := by
      constructor <;> rintro rfl <;> exact absurd isDigit (by decide)
    exact (exponent?_unsigned letter (by simpa using unsigned.1) (by simpa using unsigned.2)).trans
      (magnitude?_append_of_ends run ends [e])
  | @plus e ds letter run =>
    exact (exponent?_plus letter _).trans (magnitude?_append_of_ends run ends [e, '+'])
  | @minus e ds letter run =>
    exact (exponent?_minus letter _).trans (magnitude?_append_of_ends run ends [e, '-'])

theorem exists_letter_of_exponentText (exponent : ExponentText negative es) :
    ∃ e more, es = e :: more ∧ (e = 'e' ∨ e = 'E') := by
  cases exponent with
  | plain letter _ => exact ⟨_, _, rfl, letter⟩
  | plus letter _ => exact ⟨_, _, rfl, letter⟩
  | minus letter _ => exact ⟨_, _, rfl, letter⟩

theorem getLast?_append_exponentText (exponent : ExponentText negative es) (front : List Char) :
    (front ++ es).getLast? ≠ some '#' := by
  cases exponent with
  | @plain e ds _ run => rw [List.append_cons]; exact getLast?_append_decimals run _
  | @plus e ds _ run => rw [List.append_cons, List.append_cons]; exact getLast?_append_decimals run _
  | @minus e ds _ run => rw [List.append_cons, List.append_cons]; exact getLast?_append_decimals run _

/-- What stands behind a mantissa: no exponent, or one and then no more digits. -/
inductive Tail (point : Bool) : (es rest : List Char) → Prop where
  | plain {rest : List Char} : ¬ StartsExponent rest → Tail point [] rest
  | scaled {negative : Bool} {es rest : List Char} : ExponentText negative es → (negative → point) →
      RunEnds rest → Tail point es rest

theorem scaled_of_tail (tail : Tail point es rest) (text : List Char) :
    scaled point true text (es ++ rest) = ⟨.token (kind point), text ++ es, rest⟩ := by
  cases tail with
  | plain none_starts =>
    rw [List.nil_append, scaled, exponent?_eq_none_iff.mpr none_starts, List.append_nil]
    rfl
  | @scaled negative es rest exponent allowed ends =>
    rw [scaled, exponent?_append_of_ends exponent ends]
    dsimp only
    have fine : (negative && !point) = false := by
      cases negative
      · rfl
      · simp [allowed rfl]
    rw [fine]
    rfl

/-! ### Mantissas -/

theorem fraction?_append_of_ends (run : Decimals ds) (ends : RunEnds rest) :
    fraction? ('.' :: (ds ++ rest)) = some ⟨'.' :: ds, true, rest⟩ := by
  obtain ⟨text, after⟩ := decimals_append_of_ends run ends
  rw [fraction?, if_pos (startsWithDigit_append run rest), text, after, separated_decimals_iff.mpr run]

theorem read_of_mark (run : Decimals ds) (rest : List Char) : read (ds ++ '#' :: rest) = based ds rest := by
  obtain ⟨text, after⟩ := decimals_append_of_ends run
    (show RunEnds ('#' :: rest) from fun c first => by cases first; rfl)
  rw [read, after, text]
  rfl

theorem read_of_no_mark (run : Decimals ds) (ends : RunEnds rest) (no_mark : rest.head? ≠ some '#') :
    read (ds ++ rest) = decimal ds rest := by
  obtain ⟨text, after⟩ := decimals_append_of_ends run ends
  rw [read, after, text]
  split
  · exact absurd rfl no_mark
  · rfl

theorem closed_of_tail {base : Nat} (inRange : Text.isBase base) (tail : Tail point es rest) (text : List Char) :
    closed base point true text ('#' :: (es ++ rest)) =
      ⟨.token (kind point), text ++ ['#'] ++ es, rest⟩ := by
  rw [closed, scaled_of_tail tail, rebased, inRange]
  rfl

theorem wordEnds_cons {c : Char} (other : Text.isWordChar c = false) (rest : List Char) :
    WordEnds (c :: rest) := by
  intro d first
  cases first
  simp [other]

/-- What follows the digits of a number without marks and point: it ends the number, or is its exponent. -/
structure WholeEnds (rest : List Char) : Prop where
  fraction : ¬ StartsFraction rest
  mark : rest.head? ≠ some '#'
  letter : ¬ StartsExponent rest → ∀ c ∈ rest.head?, ¬ c.isAlpha

theorem decimal_of_wholeEnds (run : Decimals ds) (ends : RunEnds (es ++ rest)) (whole : WholeEnds (es ++ rest))
    (tail : Tail false es rest) : decimal ds (es ++ rest) = ⟨.token .integer, ds ++ es, rest⟩ := by
  have no_letter : ((exponent? (es ++ rest)).isNone && (es ++ rest).head?.any Text.isWordStart) = false := by
    rw [Bool.and_eq_false_imp, Option.isNone_iff_eq_none, exponent?_eq_none_iff]
    intro absent
    rw [Option.any_eq_false]
    intro c first
    have no_underscore := ends c first
    simp only [isDigitOrUnderscore, Bool.or_eq_false_iff] at no_underscore
    simp [Text.isWordStart, whole.letter absent c first, no_underscore.2]
  rw [decimal, fraction?_eq_none_of_not whole.fraction]
  dsimp only
  rw [no_letter, separated_decimals_iff.mpr run]
  exact scaled_of_tail tail ds

theorem read_of_mantissa (mantissa : Mantissa point text) (tail : Tail point es rest)
    (run : text.getLast? ≠ some '#' → RunEnds (es ++ rest)) (whole : Decimals text → WholeEnds (es ++ rest)) :
    read (text ++ (es ++ rest)) = ⟨.token (kind point), text ++ es, rest⟩ := by
  cases mantissa with
  | whole decimals =>
    have ends := run (getLast?_append_decimals decimals [])
    rw [read_of_no_mark decimals ends (whole decimals).mark]
    exact decimal_of_wholeEnds decimals ends (whole decimals) tail
  | @fraction ds fs first second =>
    have ends : RunEnds (es ++ rest) := run (by rw [List.append_cons]; exact getLast?_append_decimals second _)
    have point_ends : RunEnds ('.' :: (fs ++ (es ++ rest))) := fun c first => by cases first; rfl
    rw [List.append_assoc, List.cons_append, read_of_no_mark first point_ends (by simp), decimal,
      fraction?_append_of_ends second ends]
    dsimp only
    rw [separated_decimals_iff.mpr first]
    exact scaled_of_tail tail _
  | @based ds cs decimals inRange digits =>
    have mark := wordEnds_cons (c := '#') rfl (es ++ rest)
    have split : ds ++ '#' :: cs ++ ['#'] ++ (es ++ rest) = ds ++ '#' :: (cs ++ '#' :: (es ++ rest)) := by simp
    rw [split, read_of_mark decimals, based, extended_append_of_ends digits mark]
    dsimp only
    rw [separated_decimals_iff.mpr decimals]
    exact closed_of_tail inRange tail _
  | @basedFraction ds cs fs decimals inRange first second =>
    have mark := wordEnds_cons (c := '#') rfl (es ++ rest)
    have split : ds ++ '#' :: cs ++ '.' :: fs ++ ['#'] ++ (es ++ rest) =
        ds ++ '#' :: (cs ++ '.' :: (fs ++ '#' :: (es ++ rest))) := by simp
    rw [split, read_of_mark decimals, based, extended_append_of_ends first (wordEnds_cons rfl _)]
    dsimp only
    rw [basedFraction?, extended_append_of_ends second mark]
    dsimp only
    rw [separated_decimals_iff.mpr decimals]
    exact closed_of_tail inRange tail _

/-! ### Literals -/

/-- The text behind a literal does not go on with it. -/
structure Ends (literal rest : List Char) : Prop where
  /-- Only behind a mark may digits follow. -/
  run : literal.getLast? ≠ some '#' → RunEnds rest
  exponent : ∀ point, Mantissa point literal → ¬ StartsExponent rest
  whole : Decimals literal → ¬ StartsFraction rest ∧ ∀ c ∈ rest.head?, c ≠ '#' ∧ ¬ c.isAlpha

theorem ends_of_other (other : ∀ c ∈ rest.head?, ¬ Text.isWordChar c ∧ c ≠ '#' ∧ c ≠ '.')
    (literal : List Char) : Ends literal rest := by
  have plain : ∀ c ∈ rest.head?, c.isAlpha = false ∧ c.isDigit = false ∧ c ≠ '_' := by
    intro c first
    have no_word := (other c first).1
    simp only [Text.isWordChar, Char.isAlphanum, Bool.or_eq_true, beq_iff_eq, not_or, Bool.not_eq_true] at no_word
    exact ⟨no_word.1.1, no_word.1.2, no_word.2⟩
  refine ⟨fun _ c first => ?_, fun _ _ => ?_, fun _ => ⟨?_, fun c first => ?_⟩⟩
  · simp [isDigitOrUnderscore, plain c first]
  · rintro ⟨e, sign, d, more, rfl, letter, -, -⟩
    have no_letter := (plain e rfl).1
    rcases letter with rfl | rfl <;> exact absurd no_letter (by decide)
  · rintro ⟨d, more, rfl, -⟩
    exact (other '.' rfl).2.2 rfl
  · exact ⟨(other c first).2.1, by simp [(plain c first).1]⟩

theorem startsWithDigit_of_abstract (literal : AbstractLiteral point text) : startsWithDigit text := by
  have mantissa_starts : ∀ {cs}, Mantissa point cs → ∀ more, startsWithDigit (cs ++ more) := by
    intro cs mantissa more
    cases mantissa with
    | whole run => exact startsWithDigit_append run _
    | fraction run _ => rw [List.append_assoc]; exact startsWithDigit_append run _
    | based run _ _ => simp only [List.append_assoc]; exact startsWithDigit_append run _
    | basedFraction run _ _ _ => simp only [List.append_assoc]; exact startsWithDigit_append run _
  cases literal with
  | plain mantissa => simpa using mantissa_starts mantissa []
  | scaled mantissa _ _ => exact mantissa_starts mantissa _

theorem read_literal (literal : AbstractLiteral point text) (ends : Ends text rest) :
    read (text ++ rest) = ⟨.token (kind point), text, rest⟩ := by
  cases literal with
  | plain mantissa =>
    have whole : Decimals text → WholeEnds ([] ++ rest) := by
      intro decimals
      obtain ⟨fraction, others⟩ := ends.whole decimals
      exact ⟨fraction, fun mark => (others '#' mark).1 rfl, fun _ c first => (others c first).2⟩
    have tail : Tail point [] rest := .plain (ends.exponent point mantissa)
    simpa using read_of_mantissa mantissa tail ends.run whole
  | @scaled _ cs es mantissa exponent allowed =>
    have run_ends : RunEnds rest := ends.run (getLast?_append_exponentText exponent cs)
    have tail : Tail point es rest := .scaled exponent allowed run_ends
    have starts : StartsExponent (es ++ rest) := by
      by_contra absent
      have found := exponent?_append_of_ends exponent run_ends
      exact nomatch (exponent?_eq_none_iff.mpr absent).symm.trans found
    obtain ⟨e, more, rfl, letter⟩ := exists_letter_of_exponentText exponent
    -- The letter of the exponent ends the digits before it, and neither point nor mark stands there.
    have run : RunEnds (e :: more ++ rest) := by
      intro c first
      cases first
      rcases letter with rfl | rfl <;> decide
    have whole : WholeEnds (e :: more ++ rest) := by
      refine ⟨?_, ?_, fun absent => absurd starts absent⟩
      · rintro ⟨d, behind, same, -⟩
        obtain ⟨rfl, -⟩ := List.cons.inj same
        simp at letter
      · rintro mark
        cases mark
        simp at letter
    rw [List.append_assoc]
    exact read_of_mantissa mantissa tail (fun _ => run) fun _ => whole

/-- Decimals that a letter follows, which starts no exponent, end before it. -/
theorem read_before_letter {c : Char} (run : Decimals text) (letter : c.isAlpha)
    (no_exponent : ¬ StartsExponent (c :: rest)) :
    read (text ++ c :: rest) = ⟨.token .integerLetter, text, c :: rest⟩ := by
  have other : c ≠ '_' ∧ c ≠ '#' ∧ c ≠ '.' ∧ c.isDigit = false := by
    refine ⟨?_, ?_, ?_, ?_⟩
    · rintro rfl; exact absurd letter (by decide)
    · rintro rfl; exact absurd letter (by decide)
    · rintro rfl; exact absurd letter (by decide)
    · exact isDigit_of_isAlpha letter
  have ends : RunEnds (c :: rest) := by
    intro d first
    cases first
    simp [isDigitOrUnderscore, other]
  have no_fraction : ¬ StartsFraction (c :: rest) := by
    rintro ⟨d, more, same, -⟩
    exact other.2.2.1 (List.cons.inj same).1
  have starts : ((exponent? (c :: rest)).isNone && (c :: rest).head?.any Text.isWordStart) = true := by
    simp [exponent?_eq_none_iff.mpr no_exponent, Text.isWordStart, letter]
  rw [read_of_no_mark run ends (by simpa using other.2.1), decimal, fraction?_eq_none_of_not no_fraction]
  dsimp only
  rw [starts, separated_decimals_iff.mpr run]
  rfl

end Number

/-! ### Numbers of a line -/

theorem Piece.first_of_digit (previous? : Option TokenKind) {c : Char} (digit : c.isDigit) (rest : List Char) :
    first previous? c rest =
      (⟨.lexeme (Number.read (c :: rest)).lexeme, (Number.read (c :: rest)).text⟩,
        (Number.read (c :: rest)).rest) := by
  have other : ∀ d : Char, d.isDigit = false → c ≠ d := by
    rintro d no_digit rfl
    exact absurd digit (by simp [no_digit])
  have ink : ¬ Text.isBlank c := by
    simp [Text.isBlank, other]
  rw [first_of_ink previous? ink (other _ rfl) (other _ rfl), Lexeme.read, if_neg (other _ rfl),
    if_neg (other _ rfl), if_neg (other _ rfl), if_pos digit]

/-- Where the pieces go on with a number, it is the first of the pieces behind those before it. -/
theorem Piece.pieces_of_number {previous? : Option TokenKind} {cs text rest : List Char} {ps qs : List Piece}
    {kind : TokenKind} (cut : pieces previous? cs = ps ++ qs) (here : texts qs = text ++ rest)
    (starts : Number.startsWithDigit text) (number : Number.read (text ++ rest) = ⟨.token kind, text, rest⟩) :
    qs = ⟨.lexeme (.token kind), text⟩ :: pieces (some kind) rest := by
  obtain ⟨c, more, rfl, digit⟩ := Number.startsWithDigit_iff.mp starts
  rw [← pieces_split cut, here, List.cons_append, pieces_cons, first_of_digit _ digit]
  rw [List.cons_append] at number
  rw [number]
  rfl

theorem Located.given_of_number {w : Nat} {l : Located} {r : Reading} (outcome : Number.Outcome r)
    (piece : l.piece = ⟨.lexeme r.lexeme, r.text⟩) (stop : l.stop = l.start.after w l.piece.text) :
    (∃ t, l.token? = some t ∧ Number.Literal t.kind l.piece.text r.rest ∧ l.report? = none) ∨
      (l.token? = none ∧ ∃ d, l.report? = some d ∧ d.code? = some .invalidNumber ∧
        d.span = ⟨l.start.position, Text.width w l.piece.text⟩) := by
  have columns : l.stop.column - l.start.column = Text.width w l.piece.text := by
    rw [stop]
    exact Nat.add_sub_cancel_left _ _
  cases outcome with
  | token literal =>
    refine Or.inl ⟨⟨_, l.start.position, _⟩, by rw [token?, piece]; rfl, ?_, by rw [report?, piece]; rfl⟩
    rw [piece]
    exact literal
  | dropped code =>
    refine Or.inr ⟨by rw [token?, piece]; rfl, _, by rw [report?, piece]; rfl, congrArg some code, ?_⟩
    exact congrArg _ columns

/-- Where a number starts, it is a literal of the kind of its token or is dropped with one report, which
covers it. Every literal is read to its end as a token, unless what follows goes on with it. -/
theorem numbers_by_grammar (w : Nat) (previous? : Option TokenKind) :
    (∀ lines, ∀ l ∈ scanLines w previous? lines, Number.startsWithDigit l.piece.text →
      ∃ line before rest, (l.start.line, line) ∈ lines ∧ line.text = before ++ (l.piece.text ++ rest) ∧
        l.start = (Place.lineStart l.start.line).after w before ∧
        ((∃ t, l.token? = some t ∧ Number.Literal t.kind l.piece.text rest ∧ l.report? = none) ∨
          (l.token? = none ∧ ∃ d, l.report? = some d ∧ d.code? = some .invalidNumber ∧
            d.span = ⟨l.start.position, Text.width w l.piece.text⟩))) ∧
    (∀ cs ps qs, Piece.pieces previous? cs = ps ++ qs →
      (∀ point literal rest, Piece.texts qs = literal ++ rest → AbstractLiteral point literal →
        Number.Ends literal rest →
        qs = ⟨.lexeme (.token (Number.kind point)), literal⟩ ::
          Piece.pieces (some (Number.kind point)) rest) ∧
      ∀ digits c rest, Piece.texts qs = digits ++ c :: rest → Decimals digits → c.isAlpha →
        ¬ Number.StartsExponent (c :: rest) →
        qs = ⟨.lexeme (.token .integerLetter), digits⟩ :: Piece.pieces (some .integerLetter) (c :: rest)) ∧
    ∀ literal rest, (∀ c ∈ rest.head?, ¬ Text.isWordChar c ∧ c ≠ '#' ∧ c ≠ '.') → Number.Ends literal rest := by
  refine ⟨fun lines l scanned starts => ?_, fun cs ps qs cut => ⟨?_, ?_⟩, fun literal rest other => ?_⟩
  · obtain ⟨earlier, later, split⟩ := List.append_of_mem scanned
    obtain ⟨line, before, c, rest, mem, text, start, read⟩ := scanLines_split split
    have whole := Piece.first_append ((earlier.map (·.piece)).foldl Piece.previousAfter previous?) c rest
    rw [read] at whole
    obtain ⟨d, more, digits, digit⟩ := Number.startsWithDigit_iff.mp starts
    obtain rfl : d = c := by
      rw [digits] at whole
      exact (List.cons.inj whole).1
    rw [Piece.first_of_digit _ digit] at read whole
    have stop := stop_of_mem_scanLines scanned
    refine ⟨line, before, _, mem, text.trans (congrArg (before ++ ·) whole.symm), start, ?_⟩
    exact Located.given_of_number (Number.read_outcome (d :: rest)) read.symm stop
  · intro point literal rest here abstract ends
    exact Piece.pieces_of_number cut here (Number.startsWithDigit_of_abstract abstract)
      (Number.read_literal abstract ends)
  · intro digits c rest here run letter no_exponent
    exact Piece.pieces_of_number cut here (by simpa using Number.startsWithDigit_append run [])
      (Number.read_before_letter run letter no_exponent)
  · exact Number.ends_of_other other literal

theorem numbers_by_grammar_on_lines :
    (∃ l ∈ scanLines 1 none [(0, ⟨.code, "5__0".toList⟩)], l.token? = none ∧ ∃ d, l.report? = some d ∧
      d.code? = some .invalidNumber ∧ d.span = ⟨⟨1, 1⟩, 4⟩) ∧
    Piece.pieces none "1E3;".toList =
      ⟨.lexeme (.token .integer), "1E3".toList⟩ :: Piece.pieces (some .integer) [';'] ∧
    Piece.pieces none "1ns".toList =
      ⟨.lexeme (.token .integerLetter), ['1']⟩ :: Piece.pieces (some .integerLetter) "ns".toList := by
  obtain ⟨each, starts, ends⟩ := numbers_by_grammar 1 none
  have one : Decimals ['1'] := .one rfl
  have scaled : AbstractLiteral false "1E3".toList :=
    .scaled (.whole one) (.plain (Or.inr rfl) (.one rfl)) (by simp)
  have no_exponent : ¬ Number.StartsExponent "ns".toList := Number.exponent?_eq_none_iff.mp rfl
  have other : Number.Ends "1E3".toList [';'] := ends _ _ (by simp [Text.isWordChar, Char.isAlphanum])
  refine ⟨?_, ?_, ?_⟩
  · have scanned : (⟨⟨.lexeme (.dropped .malformedNumber), "5__0".toList⟩, ⟨0, 0, 1⟩, ⟨0, 4, 5⟩⟩ : Located) ∈
        scanLines 1 none [(0, ⟨.code, "5__0".toList⟩)] := by decide +kernel
    obtain ⟨-, -, -, -, -, -, ⟨t, given, -⟩ | dropped⟩ := each _ _ scanned rfl
    · cases given
    · exact ⟨_, scanned, dropped⟩
  · exact (starts _ [] _ rfl).1 false _ [';'] (Piece.texts_pieces none _) scaled other
  · exact (starts _ [] _ rfl).2 _ 'n' ['s'] (Piece.texts_pieces none _) one rfl no_exponent

end VhdlFrontEnd
