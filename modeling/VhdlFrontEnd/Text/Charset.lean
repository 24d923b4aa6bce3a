/-!
# Character classes

The classes of characters that the front end tells apart. Letters and digits are the ASCII
ones; every other printable character is only valid inside a literal or a comment.
-/

namespace VhdlFrontEnd.Text

/-- The blanks that separate tokens: space, tab, carriage return, the two vertical feeds and
the no-break space. A newline is no blank, because it ends a line. -/
def isBlank (c : Char) : Bool :=
  c == ' ' || c == '\t' || c == '\r' || c == '\x0b' || c == '\x0c' || c == '\u00a0'

/-- A word starts with a letter or an underscore. -/
def isWordStart (c : Char) : Bool := c.isAlpha || c == '_'

/-- A word goes on with letters, digits and underscores. -/
def isWordChar (c : Char) : Bool := c.isAlphanum || c == '_'

/-- The control characters stand below the space and from delete up to U+009F. -/
def isControl (c : Char) : Bool := c.toNat < 0x20 || (0x7f ≤ c.toNat && c.toNat < 0xa0)

/-- A graphic character may stand inside a literal. -/
def isGraphic (c : Char) : Bool := !isControl c

/-- A character of one byte. -/
def isAscii (c : Char) : Bool := c.toNat < 0x80

/-- The value of an extended digit, `0` to `9` and then `a` to `f` in either case. -/
def digitValue? (c : Char) : Option Nat :=
  if c.isDigit then some (c.toNat - '0'.toNat)
  else if 'a' ≤ c && c ≤ 'f' then some (c.toNat - 'a'.toNat + 10)
  else if 'A' ≤ c && c ≤ 'F' then some (c.toNat - 'A'.toNat + 10)
  else none

/-- A literal's base lies between two and sixteen. -/
def isBase (base : Nat) : Bool := 2 ≤ base && base ≤ 16

/-- A digit of `base` is an extended digit below it; only bases from two to sixteen have any. -/
def isDigitIn (base : Nat) (c : Char) : Bool :=
  isBase base && (digitValue? c).any (· < base)

/-- The texts agree up to the case of ASCII letters. -/
def sameIgnoringCase (a b : List Char) : Bool := a.map Char.toLower == b.map Char.toLower

theorem isWordChar_of_isWordStart {c : Char} (h : isWordStart c) : isWordChar c := by
  simp only [isWordStart, isWordChar, Char.isAlphanum, Bool.or_eq_true] at h ⊢
  exact h.elim (fun h => Or.inl (Or.inl h)) Or.inr

end VhdlFrontEnd.Text
