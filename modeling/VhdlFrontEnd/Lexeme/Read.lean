import VhdlFrontEnd.Lexeme.Number
import VhdlFrontEnd.Lexeme.Operator
import VhdlFrontEnd.Lexeme.Quoted

/-!
# Reading one lexeme

The first character says which family of lexemes to read. Main statement: every reading splits
its text, so no character is lost and each lexeme takes at least one.
-/

namespace VhdlFrontEnd.Lexeme

/-- A word: a bit string if it is a base specifier at a quote, else a keyword, else an identifier,
unless it breaks a rule for identifiers. -/
def word (cs : List Char) : Reading :=
  let text := cs.takeWhile Text.isWordChar
  let plain (rest : List Char) : Reading :=
    match Keyword.ofWord? text with
    | some k => ⟨.token (.keyword k), text, rest⟩
    | none =>
      match Text.identifierProblem? text with
      | none => ⟨.token .identifier, text, rest⟩
      | some problem => ⟨.dropped (.invalidIdentifier problem), text, rest⟩
  match cs.dropWhile Text.isWordChar with
  | '"' :: rest =>
    if Quoted.isSpecifier text then Quoted.bitString text rest else plain ('"' :: rest)
  | rest => plain rest

/-- An apostrophe: a character literal if a graphic character and another apostrophe follow, and
else a tick. After a name it is always a tick. -/
def apostrophe (afterName : Bool) (rest : List Char) : Reading :=
  match rest with
  | c :: '\'' :: rest =>
    if !afterName && Text.isGraphic c then ⟨.token .character, ['\'', c, '\''], rest⟩
    else ⟨.token (.symbol .tick), ['\''], c :: '\'' :: rest⟩
  | rest => ⟨.token (.symbol .tick), ['\''], rest⟩

/-- The symbol that starts with a character; a character that starts none is dropped. -/
def symbol (c : Char) (rest : List Char) : Reading :=
  match Lookahead.of? c with
  | some l =>
    let (text, s) := l.find rest
    ⟨.token (.symbol s), c :: text, rest.drop text.length⟩
  | none => ⟨.dropped (.unknownCharacter c), [c], rest⟩

/-- The lexeme that starts with `c`. The kind of the token before it, on whatever line, tells
whether an apostrophe follows a name. -/
def read (previous? : Option TokenKind) (c : Char) (rest : List Char) : Reading :=
  if c = '\'' then apostrophe (previous?.any TokenKind.endsName) rest
  else if c = '"' then Quoted.string rest
  else if c = '\\' then Quoted.extended rest
  else if c.isDigit then Number.read (c :: rest)
  else if Text.isWordStart c then word (c :: rest)
  else symbol c rest

theorem word_append (cs : List Char) : (word cs).text ++ (word cs).rest = cs := by
  have whole := List.takeWhile_append_dropWhile (p := Text.isWordChar) (l := cs)
  unfold word
  dsimp only
  split
  · next rest h =>
    rw [h] at whole
    split
    · rw [Quoted.bitString_append, whole]
    · repeat' split
      all_goals exact whole
  · repeat' split
    all_goals exact whole

theorem apostrophe_append (afterName : Bool) (rest : List Char) :
    (apostrophe afterName rest).text ++ (apostrophe afterName rest).rest = '\'' :: rest := by
  unfold apostrophe
  repeat' split
  all_goals rfl

theorem symbol_append (c : Char) (rest : List Char) :
    (symbol c rest).text ++ (symbol c rest).rest = c :: rest := by
  unfold symbol
  split
  · next l known =>
    exact congrArg (c :: ·) (List.prefix_iff_eq_append.mp (Lookahead.spelling_find known rest).2)
  · rfl

theorem read_append (previous? : Option TokenKind) (c : Char) (rest : List Char) :
    (read previous? c rest).text ++ (read previous? c rest).rest = c :: rest := by
  unfold read
  split
  · next h => rw [h, apostrophe_append]
  split
  · next h => rw [h, Quoted.string_append]
  split
  · next h => rw [h, Quoted.extended_append]
  split
  · exact Number.read_append _
  split
  · exact word_append _
  · exact symbol_append _ _

theorem word_ne_nil {c : Char} {rest : List Char} (h : Text.isWordStart c) :
    (word (c :: rest)).text ≠ [] := by
  have nonempty : (c :: rest).takeWhile Text.isWordChar ≠ [] := by
    simp [Text.isWordChar_of_isWordStart h]
  unfold word
  dsimp only
  split
  · split
    · intro empty
      unfold Quoted.bitString at empty
      dsimp only at empty
      repeat' split at empty
      all_goals simp at empty
    · repeat' split
      all_goals exact nonempty
  · repeat' split
    all_goals exact nonempty

/-- A lexeme takes at least one character. -/
theorem read_ne_nil (previous? : Option TokenKind) (c : Char) (rest : List Char) :
    (read previous? c rest).text ≠ [] := by
  unfold read
  split
  · unfold apostrophe; repeat' split
    all_goals simp
  split
  · unfold Quoted.string; split <;> simp
  split
  · unfold Quoted.extended; repeat' split
    all_goals simp
  split
  · next h =>
    intro empty
    have digits := Number.decimals_prefix_read (c :: rest)
    rw [empty, List.prefix_nil] at digits
    simp [Number.decimals, Number.isDigitOrUnderscore, h] at digits
  split
  · next h => exact word_ne_nil h
  · unfold symbol; split <;> simp

theorem read_splits (previous? : Option TokenKind) (c : Char) (rest : List Char) :
    (read previous? c rest).Splits (c :: rest) :=
  ⟨read_append previous? c rest, read_ne_nil previous? c rest⟩

end VhdlFrontEnd.Lexeme
