import VhdlFrontEnd.Lexeme.Read

/-!
# Spellings

The spellings that each kind of token may have, said without the functions that read them:
grammars for numbers and for texts between quotes, and from these the relation `Spells`.
-/

namespace VhdlFrontEnd

/-! ### Numbers -/

/-- Digits, with single underscores between them. -/
inductive DigitRun (digit : Char → Bool) : List Char → Prop where
  | one {c} : digit c → DigitRun digit [c]
  | more {c cs} : digit c → DigitRun digit cs → DigitRun digit (c :: cs)
  | spaced {c cs} : digit c → DigitRun digit cs → DigitRun digit (c :: '_' :: cs)

/-- Decimal digits, with single underscores between them. -/
abbrev Decimals (cs : List Char) : Prop := DigitRun Char.isDigit cs

/-- A letter `e`, a sign or none, and decimals. -/
inductive ExponentText : (negative : Bool) → List Char → Prop where
  | plain {e cs} : e = 'e' ∨ e = 'E' → Decimals cs → ExponentText false (e :: cs)
  | plus {e cs} : e = 'e' ∨ e = 'E' → Decimals cs → ExponentText false (e :: '+' :: cs)
  | minus {e cs} : e = 'e' ∨ e = 'E' → Decimals cs → ExponentText true (e :: '-' :: cs)

/-- A number up to its exponent, without or with a point. Between the marks of a based number
stand digits of its base. -/
inductive Mantissa : (point : Bool) → List Char → Prop where
  | whole {cs} : Decimals cs → Mantissa false cs
  | fraction {cs ds} : Decimals cs → Decimals ds → Mantissa true (cs ++ '.' :: ds)
  | based {base cs} : Decimals base → Text.isBase (Number.baseValue base) →
      DigitRun (Text.isDigitIn (Number.baseValue base)) cs →
      Mantissa false (base ++ '#' :: cs ++ ['#'])
  | basedFraction {base cs ds} : Decimals base → Text.isBase (Number.baseValue base) →
      DigitRun (Text.isDigitIn (Number.baseValue base)) cs →
      DigitRun (Text.isDigitIn (Number.baseValue base)) ds →
      Mantissa true (base ++ '#' :: cs ++ '.' :: ds ++ ['#'])

/-- An abstract literal: a mantissa and perhaps an exponent, which is negative only after a
point. -/
inductive AbstractLiteral : (point : Bool) → List Char → Prop where
  | plain {point cs} : Mantissa point cs → AbstractLiteral point cs
  | scaled {point negative cs es} : Mantissa point cs → ExponentText negative es →
      (negative → point) → AbstractLiteral point (cs ++ es)

/-! ### Texts between quotes -/

/-- The mark `q` stands in the text only in adjacent pairs. -/
inductive Paired (q : Char) : List Char → Prop where
  | nil : Paired q []
  | other {c cs} : c ≠ q → Paired q cs → Paired q (c :: cs)
  | pair {cs} : Paired q cs → Paired q (q :: q :: cs)

/-- A base specifier and a text between quotes that holds no quote: digits and underscores in a
decimal bit string, and no control character in any other. -/
structure BitStringText (specifier body : List Char) : Prop where
  specified : ∃ s ∈ Quoted.specifiers, Text.sameIgnoringCase s.toList specifier
  unquoted : '"' ∉ body
  decimal : Text.sameIgnoringCase specifier ['d'] → ∀ c ∈ body, c.isDigit ∨ c = '_'
  graphic : ¬ Text.sameIgnoringCase specifier ['d'] → ∀ c ∈ body, ¬ Text.isControl c

/-! ### Tokens -/

/-- A word that is an identifier and spells no keyword, in any case. -/
def BasicIdentifier (cs : List Char) : Prop :=
  Text.isIdentifier cs ∧ ∀ k : Keyword, ¬ Text.sameIgnoringCase cs k.spelling.toList

/-- The text spells a token of the kind. -/
inductive Spells : TokenKind → List Char → Prop where
  | eof : Spells .eof []
  | symbol (s) : Spells (.symbol s) s.spelling.toList
  | keyword {k cs} : Text.sameIgnoringCase cs k.spelling.toList → Spells (.keyword k) cs
  | basic {cs} : BasicIdentifier cs → Spells .identifier cs
  | extended {body} : body ≠ [] → Paired '\\' body → Spells .identifier ('\\' :: body ++ ['\\'])
  | character {c} : ¬ Text.isControl c → Spells .character ['\'', c, '\'']
  | string {body} : Paired '"' body → Spells .string ('"' :: body ++ ['"'])
  | bitString {specifier body} : BitStringText specifier body →
      Spells .bitString (specifier ++ '"' :: body ++ ['"'])
  | integer {cs} : AbstractLiteral false cs → Spells .integer cs
  | real {cs} : AbstractLiteral true cs → Spells .real cs
  | integerLetter {cs} : Decimals cs → Spells .integerLetter cs

/-- A string literal that lacks its closing quote. -/
def OpenString (cs : List Char) : Prop := ∃ body, cs = '"' :: body ∧ Paired '"' body

/-- A token that is a word: a keyword or a basic identifier. -/
def IsWord (kind : TokenKind) (cs : List Char) : Prop :=
  kind.isKeyword ∨ kind = .identifier ∧ Text.isIdentifier cs

/-- No word goes on at the front of the text. -/
def WordEnds (cs : List Char) : Prop := ∀ c ∈ cs.head?, ¬ Text.isWordChar c

/-- What a reading tells is borne out by its text: a token is spelled as its kind asks, and a word
ends with it; only a string that runs to the end of the line is a token with a fault; any other
fault drops the text. -/
inductive Reading.Sound : Reading → Prop where
  | token {kind text rest} : Spells kind text → (IsWord kind text → WordEnds rest) →
      Sound ⟨.token kind, text, rest⟩
  | openString {text} : OpenString text →
      Sound ⟨.faulty .string .unterminatedString, text, []⟩
  | dropped {fault text rest} : fault ≠ .unterminatedString → Sound ⟨.dropped fault, text, rest⟩

end VhdlFrontEnd
