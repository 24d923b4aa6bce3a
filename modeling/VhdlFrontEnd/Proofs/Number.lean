import VhdlFrontEnd.Proofs.Spelling

/-!
# Numbers are spelled by the grammar

A number that is read as a token is a literal of its kind, and any other is dropped as a number
(`read_outcome`). The `valid` flags that the readers pass on stand for runs of digits that are well
formed.
-/

namespace VhdlFrontEnd.Number

/-! ### Runs of digits -/

/-- What may follow a digit inside a run: nothing, more digits, or an underscore and more. -/
def RunTail (digit : Char → Bool) (cs : List Char) : Prop :=
  cs = [] ∨ DigitRun digit cs ∨ ∃ ds, cs = '_' :: ds ∧ DigitRun digit ds

theorem digitRun_cons_iff {digit : Char → Bool} {c : Char} {cs : List Char} :
    DigitRun digit (c :: cs) ↔ digit c ∧ RunTail digit cs := by
  constructor
  · intro run
    cases run with
    | one hc => exact ⟨hc, Or.inl rfl⟩
    | more hc run => exact ⟨hc, Or.inr (Or.inl run)⟩
    | spaced hc run => exact ⟨hc, Or.inr (Or.inr ⟨_, rfl, run⟩)⟩
  · rintro ⟨hc, rfl | run | ⟨ds, rfl, run⟩⟩
    · exact .one hc
    · exact .more hc run
    · exact .spaced hc run

/-- The reader's flag after an underscore asks for a run, and after a digit for the tail of one. -/
theorem separatedAfter_iff {digit : Char → Bool} (plain : digit '_' = false) (cs : List Char) :
    (separatedAfter digit true cs ↔ DigitRun digit cs) ∧
      (separatedAfter digit false cs ↔ RunTail digit cs) := by
  induction cs with
  | nil =>
    refine ⟨⟨fun h => (nomatch h), fun run => nomatch run⟩, fun _ => Or.inl rfl, fun _ => rfl⟩
  | cons c cs ih =>
    have run : separatedAfter digit true (c :: cs) ↔ DigitRun digit (c :: cs) := by
      rw [digitRun_cons_iff, separatedAfter]
      by_cases same : c = '_'
      · subst same
        simp [plain]
      · rw [if_neg same, Bool.and_eq_true, ih.2]
    refine ⟨run, ?_⟩
    by_cases same : c = '_'
    · subst same
      rw [separatedAfter, if_pos rfl, Bool.not_false, Bool.true_and, ih.1]
      constructor
      · exact fun run => Or.inr (Or.inr ⟨cs, rfl, run⟩)
      · rintro (empty | run | ⟨ds, same, run⟩)
        · exact nomatch empty
        · rw [digitRun_cons_iff, plain] at run
          exact nomatch run.1
        · rw [(List.cons.inj same).2]
          exact run
    · have flag : separatedAfter digit false (c :: cs) = separatedAfter digit true (c :: cs) := by
        rw [separatedAfter, separatedAfter, if_neg same, if_neg same]
      rw [flag, run]
      constructor
      · exact fun run => Or.inr (Or.inl run)
      · rintro (empty | run | ⟨ds, under, -⟩)
        · exact nomatch empty
        · exact run
        · exact absurd (List.cons.inj under).1 same

theorem separated_iff {digit : Char → Bool} (plain : digit '_' = false) {cs : List Char} :
    separated digit cs ↔ DigitRun digit cs :=
  (separatedAfter_iff plain cs).1

theorem separated_decimals_iff {cs : List Char} : separated Char.isDigit cs ↔ Decimals cs :=
  separated_iff (by decide)

theorem isDigitIn_underscore (base : Nat) : Text.isDigitIn base '_' = false := by
  simp [Text.isDigitIn, show Text.digitValue? '_' = none from by decide]

theorem separated_digits_iff {base : Nat} {cs : List Char} :
    separated (Text.isDigitIn base) cs ↔ DigitRun (Text.isDigitIn base) cs :=
  separated_iff (isDigitIn_underscore base)

/-! ### Exponents and fractions -/

/-- The exponent of the letter and sign `front` and the digits that follow. -/
def magnitude? (front : List Char) (negative : Bool) (digits : List Char) : Option Exponent :=
  if startsWithDigit digits then
    some ⟨⟨front ++ decimals digits, separated Char.isDigit (decimals digits), afterDecimals digits⟩, negative⟩
  else none

section Signs

variable {e : Char} (letter : e = 'e' ∨ e = 'E')

include letter

theorem exponent?_plus (digits : List Char) :
    exponent? (e :: '+' :: digits) = magnitude? [e, '+'] false digits := by
  rw [exponent?.eq_def]
  exact if_pos letter

theorem exponent?_minus (digits : List Char) :
    exponent? (e :: '-' :: digits) = magnitude? [e, '-'] true digits := by
  rw [exponent?.eq_def]
  exact if_pos letter

theorem exponent?_unsigned {rest : List Char} (plus : rest.head? ≠ some '+') (minus : rest.head? ≠ some '-') :
    exponent? (e :: rest) = magnitude? [e] false rest := by
  rw [exponent?.eq_def]
  dsimp only
  rw [if_pos letter]
  split
  · exact absurd rfl plus
  · exact absurd rfl minus
  · rfl

end Signs

theorem exponent?_of_other {e : Char} (other : ¬ (e = 'e' ∨ e = 'E')) (rest : List Char) :
    exponent? (e :: rest) = none := by
  rw [exponent?.eq_def]
  exact if_neg other

theorem startsWithDigit_iff {cs : List Char} : startsWithDigit cs ↔ ∃ d rest, cs = d :: rest ∧ d.isDigit := by
  cases cs <;> simp [startsWithDigit]

/-- A letter `e`, a sign or none, and a digit stand at the front of the text. -/
def StartsExponent (cs : List Char) : Prop :=
  ∃ e sign d rest, cs = e :: (sign ++ d :: rest) ∧ (e = 'e' ∨ e = 'E') ∧
    (sign = [] ∨ sign = ['+'] ∨ sign = ['-']) ∧ d.isDigit

theorem exponent?_eq_none_iff {cs : List Char} : exponent? cs = none ↔ ¬ StartsExponent cs := by
  constructor
  · rintro none_found ⟨e, sign, d, rest, rfl, letter, signed, digit⟩
    have found : ∀ front negative, magnitude? front negative (d :: rest) ≠ none := by
      intro front negative
      rw [magnitude?, if_pos (startsWithDigit_iff.mpr ⟨d, rest, rfl, digit⟩)]
      exact Option.some_ne_none _
    rcases signed with rfl | rfl | rfl
    · have unsigned : d ≠ '+' ∧ d ≠ '-' := by
        constructor <;> rintro rfl <;> exact absurd digit (by decide)
      rw [List.nil_append, exponent?_unsigned letter (by simpa using unsigned.1) (by simpa using unsigned.2)]
        at none_found
      exact found _ _ none_found
    · exact found _ _ ((exponent?_plus letter _).symm.trans none_found)
    · exact found _ _ ((exponent?_minus letter _).symm.trans none_found)
  · intro absent
    cases cs with
    | nil => rfl
    | cons e rest =>
      by_cases letter : e = 'e' ∨ e = 'E'
      · have none_found : ∀ front negative sign digits, rest = sign ++ digits →
            (sign = [] ∨ sign = ['+'] ∨ sign = ['-']) → magnitude? front negative digits = none := by
          intro front negative sign digits split signed
          rw [magnitude?, if_neg]
          intro starts
          obtain ⟨d, more, rfl, digit⟩ := startsWithDigit_iff.mp starts
          exact absent ⟨e, sign, d, more, congrArg (e :: ·) split, letter, signed, digit⟩
        by_cases plus : rest.head? = some '+'
        · obtain ⟨digits, rfl⟩ := List.head?_eq_some_iff.mp plus
          rw [exponent?_plus letter]
          exact none_found _ _ ['+'] digits rfl (Or.inr (Or.inl rfl))
        by_cases minus : rest.head? = some '-'
        · obtain ⟨digits, rfl⟩ := List.head?_eq_some_iff.mp minus
          rw [exponent?_minus letter]
          exact none_found _ _ ['-'] digits rfl (Or.inr (Or.inr rfl))
        rw [exponent?_unsigned letter plus minus]
        exact none_found _ _ [] rest rfl (Or.inl rfl)
      · exact exponent?_of_other letter rest

/-- A point and a digit stand at the front of the text. -/
def StartsFraction (cs : List Char) : Prop := ∃ d rest, cs = '.' :: d :: rest ∧ d.isDigit

theorem fraction?_eq_none_of_not {cs : List Char} (absent : ¬ StartsFraction cs) : fraction? cs = none := by
  unfold fraction?
  split
  · next rest =>
    rw [if_neg]
    intro starts
    obtain ⟨d, more, rfl, digit⟩ := startsWithDigit_iff.mp starts
    exact absent ⟨d, more, rfl, digit⟩
  · rfl

theorem exponentText_of_exponent? {cs : List Char} {e : Exponent} (h : exponent? cs = some e)
    (valid : e.valid) : ExponentText e.negative e.text := by
  unfold exponent? at h
  split at h
  · next letter rest =>
    split at h
    · next isE =>
      repeat' split at h
      all_goals cases h
      · exact .plus isE (separated_decimals_iff.mp valid)
      · exact .minus isE (separated_decimals_iff.mp valid)
      · exact .plain isE (separated_decimals_iff.mp valid)
    · exact nomatch h
  · exact nomatch h

theorem fraction?_text {cs : List Char} {f : Part} (h : fraction? cs = some f) :
    ∃ ds, f.text = '.' :: ds ∧ (f.valid → Decimals ds) := by
  unfold fraction? at h
  split at h
  · split at h
    · cases h; exact ⟨_, rfl, separated_decimals_iff.mp⟩
    · exact nomatch h
  · exact nomatch h

theorem basedFraction?_text {base : Nat} {cs : List Char} {f : Part}
    (h : basedFraction? base cs = some f) :
    ∃ ds, f.text = '.' :: ds ∧ (f.valid → DigitRun (Text.isDigitIn base) ds) := by
  unfold basedFraction? at h
  split at h
  · cases h; exact ⟨_, rfl, separated_digits_iff.mp⟩
  · exact nomatch h

/-! ### Whole numbers -/

/-- The text is a number of the kind, where `rest` follows it: an abstract literal, or decimals that
a letter follows which starts no exponent. -/
inductive Literal : TokenKind → (text rest : List Char) → Prop where
  | integer {text rest} : AbstractLiteral false text → Literal .integer text rest
  | real {text rest} : AbstractLiteral true text → Literal .real text rest
  | integerLetter {text c rest} : Decimals text → c.isAlpha → ¬ StartsExponent (c :: rest) →
      Literal .integerLetter text (c :: rest)

theorem Literal.of_abstract {point : Bool} {text : List Char} (literal : AbstractLiteral point text)
    (rest : List Char) : Literal (kind point) text rest := by
  cases point
  · exact .integer literal
  · exact .real literal

/-- What can become of a number: it is a token of its kind, or it is dropped as a number. -/
inductive Outcome : Reading → Prop where
  | token {kind text rest} : Literal kind text rest → Outcome ⟨.token kind, text, rest⟩
  | dropped {fault text rest} : fault.code = .invalidNumber → Outcome ⟨.dropped fault, text, rest⟩

theorem Outcome.sound {r : Reading} (outcome : Outcome r) : r.Sound := by
  cases outcome with
  | token literal =>
    have no_word : ∀ {kind cs}, kind = .integer ∨ kind = .real ∨ kind = .integerLetter → ¬ IsWord kind cs := by
      rintro kind cs (rfl | rfl | rfl) <;> simp [IsWord, TokenKind.isKeyword]
    cases literal with
    | integer literal => exact .token (.integer literal) fun word => absurd word (no_word (Or.inl rfl))
    | real literal => exact .token (.real literal) fun word => absurd word (no_word (Or.inr (Or.inl rfl)))
    | integerLetter run _ _ =>
      exact .token (.integerLetter run) fun word => absurd word (no_word (Or.inr (Or.inr rfl)))
  | dropped code => exact .dropped fun same => by rw [same] at code; exact nomatch code

theorem finish_outcome {valid : Bool} {k : TokenKind} {text rest : List Char}
    (literal : valid → Literal k text rest) : Outcome (finish valid k text rest) := by
  unfold finish
  split
  · next holds => exact .token (literal holds)
  · exact .dropped rfl

theorem scaled_outcome {point valid : Bool} {text : List Char} (mantissa : valid → Mantissa point text)
    (rest : List Char) : Outcome (scaled point valid text rest) := by
  unfold scaled
  split
  · next e found =>
    split
    · exact .dropped rfl
    · next allowed =>
      refine finish_outcome fun holds => ?_
      rw [Bool.and_eq_true] at holds
      refine .of_abstract (.scaled (mantissa holds.1) (exponentText_of_exponent? found holds.2) ?_) _
      intro negative
      simpa [negative] using allowed
  · exact finish_outcome fun holds => .of_abstract (.plain (mantissa holds)) _

/-- No digit and no underscore stands at the front of the text. -/
def RunEnds (cs : List Char) : Prop := ∀ c ∈ cs.head?, isDigitOrUnderscore c = false

theorem runEnds_afterDecimals (cs : List Char) : RunEnds (afterDecimals cs) := by
  intro c first
  have stops := List.head?_dropWhile_not isDigitOrUnderscore cs
  rw [← afterDecimals, Option.mem_def.mp first] at stops
  exact stops

theorem decimal_outcome (digits : List Char) {rest : List Char} (ends : RunEnds rest) :
    Outcome (decimal digits rest) := by
  unfold decimal
  dsimp only
  split
  · next f found =>
    obtain ⟨ds, text, decimals⟩ := fraction?_text found
    rw [text]
    refine scaled_outcome (fun holds => ?_) _
    rw [Bool.and_eq_true] at holds
    exact .fraction (separated_decimals_iff.mp holds.1) (decimals holds.2)
  · split
    · next follows =>
      rw [Bool.and_eq_true, Option.isNone_iff_eq_none, exponent?_eq_none_iff, Option.any_eq_true] at follows
      obtain ⟨no_exponent, c, first, starts⟩ := follows
      obtain ⟨more, rfl⟩ := List.head?_eq_some_iff.mp first
      have letter : c.isAlpha := by
        have no_underscore := ends c rfl
        simp only [isDigitOrUnderscore, Bool.or_eq_false_iff] at no_underscore
        simpa [Text.isWordStart, no_underscore.2] using starts
      exact finish_outcome fun holds => .integerLetter (separated_decimals_iff.mp holds) letter no_exponent
    · exact scaled_outcome (fun holds => .whole (separated_decimals_iff.mp holds)) _

/-- Only a base in range leaves a token as it is. -/
theorem rebased_outcome {base : Nat} {r : Reading} (outcome : Text.isBase base → Outcome r) :
    Outcome (rebased base r) := by
  unfold rebased
  split
  · next kept =>
    by_cases inRange : Text.isBase base
    · exact outcome inRange
    · obtain ⟨lexeme, text, rest⟩ := r
      obtain rfl : lexeme = .dropped .negativeExponent := by simpa [inRange] using kept
      exact .dropped rfl
  · exact .dropped rfl

theorem closed_outcome {base : Nat} {point valid : Bool} {text : List Char}
    (mantissa : Text.isBase base → valid → Mantissa point (text ++ ['#'])) (rest : List Char) :
    Outcome (closed base point valid text rest) := by
  unfold closed
  split
  · exact rebased_outcome fun inRange => scaled_outcome (mantissa inRange) _
  · exact .dropped rfl

theorem based_outcome (digits rest : List Char) : Outcome (based digits rest) := by
  unfold based
  dsimp only
  split
  · next f found =>
    obtain ⟨ds, text, run⟩ := basedFraction?_text found
    rw [text]
    refine closed_outcome (fun inRange holds => ?_) _
    simp only [Bool.and_eq_true] at holds
    exact .basedFraction (separated_decimals_iff.mp holds.1.1) inRange
      (separated_digits_iff.mp holds.1.2) (run holds.2)
  · refine closed_outcome (fun inRange holds => ?_) _
    rw [Bool.and_eq_true] at holds
    exact .based (separated_decimals_iff.mp holds.1) inRange (separated_digits_iff.mp holds.2)

theorem read_outcome (cs : List Char) : Outcome (read cs) := by
  unfold read
  split
  · exact based_outcome _ _
  · exact decimal_outcome _ (runEnds_afterDecimals cs)

end VhdlFrontEnd.Number
