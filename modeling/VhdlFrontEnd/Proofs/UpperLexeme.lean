import Mathlib.Data.List.TakeWhile
import VhdlFrontEnd.Proofs.Reading
import VhdlFrontEnd.Proofs.Upper

/-!
# Lexemes in upper case

A text in upper case is read as the same lexeme as the text, in upper case (`Lexeme.read_upper`).
The letters that mean something in a lexeme, such as those of an exponent, of a base specifier or
of a reserved word, mean the same in either case.
-/

namespace VhdlFrontEnd

open Text

/-- The fault with the character that it names in upper case. -/
def LexicalFault.upper : LexicalFault → LexicalFault
  | unknownCharacter c => .unknownCharacter c.toUpper
  | bitStringCharacter c => .bitStringCharacter c.toUpper
  | fault => fault

def Lexeme.upper : Lexeme → Lexeme
  | token kind => .token kind
  | faulty kind fault => .faulty kind fault.upper
  | dropped fault => .dropped fault.upper

def Reading.upper (r : Reading) : Reading := ⟨r.lexeme.upper, Text.upper r.text, Text.upper r.rest⟩

/-! ### Numbers -/

namespace Number

def Part.upper (p : Part) : Part := ⟨Text.upper p.text, p.valid, Text.upper p.rest⟩

def Exponent.upper (e : Exponent) : Exponent := ⟨e.toPart.upper, e.negative⟩

@[simp] theorem isDigitOrUnderscore_toUpper (c : Char) : isDigitOrUnderscore c.toUpper = isDigitOrUnderscore c :=
  forall_toUpper (by decide) c

theorem decimals_upper (cs : List Char) : decimals (upper cs) = upper (decimals cs) :=
  takeWhile_upper isDigitOrUnderscore_toUpper cs

theorem afterDecimals_upper (cs : List Char) : afterDecimals (upper cs) = upper (afterDecimals cs) :=
  dropWhile_upper isDigitOrUnderscore_toUpper cs

theorem separatedAfter_upper {digit : Char → Bool} (blind : ∀ c, digit c.toUpper = digit c)
    (underscore : Bool) (cs : List Char) :
    separatedAfter digit underscore (upper cs) = separatedAfter digit underscore cs := by
  induction cs generalizing underscore with
  | nil => rfl
  | cons c cs ih =>
    rw [upper_cons, separatedAfter, separatedAfter, blind, ih, ih]
    simp only [toUpper_eq_iff (d := '_') rfl]

theorem separated_upper {digit : Char → Bool} (blind : ∀ c, digit c.toUpper = digit c) (cs : List Char) :
    separated digit (upper cs) = separated digit cs :=
  separatedAfter_upper blind true cs

theorem startsWithDigit_upper (cs : List Char) : startsWithDigit (upper cs) = startsWithDigit cs := by
  cases cs with
  | nil => rfl
  | cons c cs => exact isDigit_toUpper c

theorem fraction?_upper (cs : List Char) : fraction? (upper cs) = (fraction? cs).map Part.upper := by
  cases cs with
  | nil => rfl
  | cons c rest =>
    by_cases point : c = '.'
    · subst point
      rw [upper_cons_of_plain rfl, fraction?, fraction?, startsWithDigit_upper, decimals_upper,
        separated_upper isDigit_toUpper, afterDecimals_upper]
      split <;> rfl
    · simp [fraction?, point, toUpper_eq_iff (d := '.') rfl]

theorem magnitude?_upper (front : List Char) (negative : Bool) (digits : List Char) :
    magnitude? (upper front) negative (upper digits) = (magnitude? front negative digits).map Exponent.upper := by
  rw [magnitude?, magnitude?, startsWithDigit_upper, decimals_upper, separated_upper isDigit_toUpper,
    afterDecimals_upper, ← upper_append]
  split <;> rfl

theorem exponent?_upper (cs : List Char) : exponent? (upper cs) = (exponent? cs).map Exponent.upper := by
  cases cs with
  | nil => rfl
  | cons e rest =>
    have same_letter : (e.toUpper = 'e' ∨ e.toUpper = 'E') ↔ (e = 'e' ∨ e = 'E') :=
      decide_eq_decide.mp (forall_toUpper (f := fun e => decide (e = 'e' ∨ e = 'E')) (by decide) e)
    by_cases letter : e = 'e' ∨ e = 'E'
    · have upper_letter := same_letter.mpr letter
      by_cases plus : rest.head? = some '+'
      · obtain ⟨digits, rfl⟩ := List.head?_eq_some_iff.mp plus
        exact (exponent?_plus upper_letter _).trans
          ((magnitude?_upper [e, '+'] false digits).trans (congrArg _ (exponent?_plus letter digits).symm))
      by_cases minus : rest.head? = some '-'
      · obtain ⟨digits, rfl⟩ := List.head?_eq_some_iff.mp minus
        exact (exponent?_minus upper_letter _).trans
          ((magnitude?_upper [e, '-'] true digits).trans (congrArg _ (exponent?_minus letter digits).symm))
      rw [exponent?_unsigned letter plus minus, ← magnitude?_upper]
      rw [← map_toUpper_eq_some_iff rfl, ← head?_upper] at plus minus
      exact exponent?_unsigned upper_letter plus minus
    · rw [upper_cons, exponent?_of_other letter, exponent?_of_other (mt same_letter.mp letter), Option.map_none]

theorem finish_upper (valid : Bool) (kind : TokenKind) (text rest : List Char) :
    finish valid kind (upper text) (upper rest) = (finish valid kind text rest).upper := by
  unfold finish
  split <;> rfl

theorem scaled_upper (real valid : Bool) (text rest : List Char) :
    scaled real valid (upper text) (upper rest) = (scaled real valid text rest).upper := by
  rw [scaled, scaled, exponent?_upper]
  cases exponent? rest with
  | none => exact finish_upper _ _ _ _
  | some e =>
    dsimp only [Option.map_some, Exponent.upper, Part.upper]
    rw [← upper_append, finish_upper]
    split <;> rfl

theorem decimal_upper (digits rest : List Char) :
    decimal (upper digits) (upper rest) = (decimal digits rest).upper := by
  have first : (upper rest).head?.any isWordStart = rest.head?.any isWordStart := by
    cases rest with
    | nil => rfl
    | cons c rest => exact isWordStart_toUpper c
  rw [decimal, decimal, separated_upper isDigit_toUpper, fraction?_upper]
  cases fraction? rest with
  | some f =>
    dsimp only [Option.map_some, Part.upper]
    rw [← upper_append, scaled_upper]
  | none =>
    dsimp only [Option.map_none]
    rw [exponent?_upper, Option.isNone_map, first, finish_upper, scaled_upper]
    split <;> rfl

theorem upper_decimals (cs : List Char) : upper (decimals cs) = decimals cs := by
  have no_letter : ∀ n < 26, ¬ isDigitOrUnderscore (Char.ofNat (97 + n)) := by decide
  refine upper_of_not_isLower fun c mem lower => ?_
  obtain ⟨n, small, rfl⟩ := exists_of_isLower lower
  exact no_letter n small (List.mem_takeWhile_imp mem)

theorem extended_upper (base : Nat) (cs : List Char) : extended base (upper cs) = (extended base cs).upper := by
  rw [extended, extended, takeWhile_upper isWordChar_toUpper, dropWhile_upper isWordChar_toUpper,
    separated_upper (isDigitIn_toUpper base)]
  rfl

theorem basedFraction?_upper (base : Nat) (cs : List Char) :
    basedFraction? base (upper cs) = (basedFraction? base cs).map Part.upper := by
  cases cs with
  | nil => rfl
  | cons c rest =>
    by_cases point : c = '.'
    · subst point
      rw [upper_cons_of_plain rfl, basedFraction?, basedFraction?, extended_upper]
      rfl
    · simp [basedFraction?, point, toUpper_eq_iff (d := '.') rfl]

theorem rebased_upper (base : Nat) (r : Reading) : rebased base r.upper = (rebased base r).upper := by
  have same : r.upper.lexeme = .dropped .negativeExponent ↔ r.lexeme = .dropped .negativeExponent := by
    obtain ⟨lexeme, text, rest⟩ := r
    cases lexeme with
    | dropped fault => cases fault <;> simp [Reading.upper, Lexeme.upper, LexicalFault.upper]
    | _ => simp [Reading.upper, Lexeme.upper]
  unfold rebased
  simp only [same]
  split <;> rfl

theorem closed_upper (base : Nat) (real valid : Bool) (text rest : List Char) :
    closed base real valid (upper text) (upper rest) = (closed base real valid text rest).upper := by
  cases rest with
  | nil => rfl
  | cons c rest =>
    by_cases mark : c = '#'
    · subst mark
      rw [upper_cons_of_plain rfl, closed, closed, ← rebased_upper, ← scaled_upper, upper_append]
      rfl
    · simp [closed, mark, toUpper_eq_iff (d := '#') rfl, Reading.upper, Lexeme.upper, LexicalFault.upper]

/-- The digits of the base are not changed, so neither is their value. -/
theorem based_upper (cs rest : List Char) :
    based (decimals cs) (upper rest) = (based (decimals cs) rest).upper := by
  have text (base : Nat) : decimals cs ++ '#' :: upper (extended base rest).text =
      upper (decimals cs ++ '#' :: (extended base rest).text) := by
    rw [upper_append, upper_decimals, upper_cons_of_plain rfl]
  rw [based, based, extended_upper]
  dsimp only [Part.upper]
  rw [text, basedFraction?_upper]
  cases basedFraction? (baseValue (decimals cs)) (extended (baseValue (decimals cs)) rest).rest with
  | none => exact closed_upper _ _ _ _ _
  | some f =>
    dsimp only [Option.map_some, Part.upper]
    rw [← upper_append, closed_upper]

theorem read_upper (cs : List Char) : read (upper cs) = (read cs).upper := by
  rw [read, read, afterDecimals_upper, decimals_upper]
  split
  · next marked =>
    obtain ⟨rest, found, rfl⟩ := (upper_eq_cons_iff rfl).mp marked
    rw [found, upper_decimals]
    exact based_upper cs rest
  · next no_mark =>
    split
    · next rest found =>
      rw [found] at no_mark
      exact absurd rfl (no_mark (upper rest))
    · exact decimal_upper _ _

end Number

/-! ### Literals between quotes -/

namespace Quoted

theorem upToClose?_upper {q : Char} (plain : q.isAlpha = false) (cs : List Char) :
    upToClose? q (upper cs) = (upToClose? q cs).map fun parts => (upper parts.1, upper parts.2) := by
  fun_induction upToClose? q cs with
  | case1 => rfl
  | case2 => simp [upToClose?, toUpper_of_not_isAlpha plain]
  | case3 cs ih => simp [upToClose?, toUpper_of_not_isAlpha plain, ih, Function.comp_def]
  | case4 d cs other => simp [upToClose?, toUpper_of_not_isAlpha plain, toUpper_eq_iff plain, other]
  | case5 c cs other ih =>
    rw [upper_cons, upToClose?.eq_def]
    simp [toUpper_eq_iff plain, other, ih, Function.comp_def]

theorem string_upper (rest : List Char) : string (upper rest) = (string rest).upper := by
  rw [string, string, upToClose?_upper rfl]
  cases upToClose? '"' rest <;> rfl

theorem extended_upper (rest : List Char) : extended (upper rest) = (extended rest).upper := by
  rw [extended, extended, upToClose?_upper rfl]
  cases upToClose? '\\' rest with
  | none => rfl
  | some parts =>
    have alone : upper parts.1 = ['\\'] ↔ parts.1 = ['\\'] := by
      rw [upper_eq_cons_iff rfl]
      simp
    dsimp only [Option.map_some]
    simp only [alone]
    split <;> rfl

theorem isSpecifier_upper (word : List Char) : isSpecifier (upper word) = isSpecifier word := by
  simp only [isSpecifier, sameIgnoringCase_upper]

@[simp] theorem isBitCharacter_toUpper (decimal : Bool) (c : Char) :
    isBitCharacter decimal c.toUpper = isBitCharacter decimal c := by
  cases decimal
  · exact isGraphic_toUpper c
  · exact Number.isDigitOrUnderscore_toUpper c

theorem bitString_upper (specifier rest : List Char) :
    bitString (upper specifier) (upper rest) = (bitString specifier rest).upper := by
  have quote (c : Char) : decide (c.toUpper ≠ '"') = decide (c ≠ '"') := by
    simp only [ne_eq, toUpper_eq_iff (d := '"') rfl]
  rw [bitString, bitString]
  dsimp only
  rw [takeWhile_upper quote, dropWhile_upper quote, upper_sameIgnoringCase]
  cases rest.dropWhile (· ≠ '"') with
  | nil => simp [Reading.upper, Lexeme.upper, LexicalFault.upper, upper_cons_of_plain (d := '"') rfl]
  | cons q after =>
    dsimp only [upper_cons]
    rw [find?_upper (fun c => by rw [isBitCharacter_toUpper])]
    cases (rest.takeWhile (· ≠ '"')).find? fun c => !isBitCharacter (sameIgnoringCase specifier ['d']) c with
    | none => simp [Reading.upper, Lexeme.upper, upper_cons_of_plain (d := '"') rfl]
    | some c => simp [Reading.upper, Lexeme.upper, LexicalFault.upper, upper_cons_of_plain (d := '"') rfl]

end Quoted

/-! ### One lexeme -/

namespace Lexeme

theorem plainWord_upper (text rest : List Char) :
    plainWord (Text.upper text) (Text.upper rest) = (plainWord text rest).upper := by
  rw [plainWord, plainWord, Keyword.ofWord?_upper, identifierProblem?_upper]
  cases Keyword.ofWord? text with
  | some k => rfl
  | none => cases identifierProblem? text <;> rfl

theorem word_upper (cs : List Char) : word (Text.upper cs) = (word cs).upper := by
  have text := takeWhile_upper isWordChar_toUpper cs
  have after := dropWhile_upper isWordChar_toUpper cs
  by_cases quote : (cs.dropWhile isWordChar).head? = some '"'
  · obtain ⟨rest, found⟩ := List.head?_eq_some_iff.mp quote
    rw [found, upper_cons_of_plain rfl] at after
    rw [word_of_quote found, word_of_quote after, text, Quoted.isSpecifier_upper, Quoted.bitString_upper,
      ← upper_cons_of_plain rfl, plainWord_upper]
    split <;> rfl
  · have upper_other : ((Text.upper cs).dropWhile isWordChar).head? ≠ some '"' := by
      rwa [after, head?_upper, ne_eq, map_toUpper_eq_some_iff rfl]
    rw [word_of_other quote, word_of_other upper_other, text, after, plainWord_upper]

theorem apostrophe_upper (afterName : Bool) (rest : List Char) :
    apostrophe afterName (Text.upper rest) = (apostrophe afterName rest).upper := by
  match rest with
  | [] => rfl
  | [_] => rfl
  | c :: d :: rest =>
    by_cases close : d = '\''
    · subst close
      rw [upper_cons, upper_cons_of_plain rfl, apostrophe, apostrophe, isGraphic_toUpper]
      split <;> rfl
    · simp [apostrophe, close, toUpper_eq_iff (d := '\'') rfl, Reading.upper, upper]

theorem symbol_upper (c : Char) (rest : List Char) :
    symbol c.toUpper (Text.upper rest) = (symbol c rest).upper := by
  rw [symbol, symbol, Lookahead.of?_toUpper]
  cases known : Lookahead.of? c with
  | none => rfl
  | some l =>
    have text := Lookahead.upper_find known rest
    have after : (Text.upper rest).drop (l.find rest).1.length =
        Text.upper (rest.drop (l.find rest).1.length) := List.map_drop.symm
    dsimp only [Reading.upper]
    rw [Lookahead.find_upper known, Text.upper_cons, text, after]
    rfl

theorem read_upper (previous? : Option TokenKind) (c : Char) (rest : List Char) :
    read previous? c.toUpper (Text.upper rest) = (read previous? c rest).upper := by
  unfold read
  simp only [toUpper_eq_iff (d := '\'') rfl, toUpper_eq_iff (d := '"') rfl, toUpper_eq_iff (d := '\\') rfl,
    isDigit_toUpper, isWordStart_toUpper, ← upper_cons, apostrophe_upper, Quoted.string_upper,
    Quoted.extended_upper, Number.read_upper, word_upper, symbol_upper]
  repeat' split
  all_goals rfl

end Lexeme

end VhdlFrontEnd
