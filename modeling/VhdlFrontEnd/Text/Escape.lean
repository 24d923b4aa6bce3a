import VhdlFrontEnd.Text.Visible

/-!
# Escaped characters

How a message shows a character that may not be printable, and how a list of texts is shown
with its quotes.
-/

namespace VhdlFrontEnd.Text

/-- A code point in braces, in lower-case hexadecimal without leading zeros. -/
def hexEscape (c : Char) : List Char :=
  ['\\', 'u', '\x7b'] ++ Nat.toDigits 16 c.toNat ++ ['\x7d']

/-- The text that stands for a character in a message: the printable ASCII characters stand for
themselves, except that the quotes and the backslash take a backslash; the three usual control
characters have a letter; any other character is shown by its code point. -/
def escape (c : Char) : List Char :=
  if c = '\t' then ['\\', 't']
  else if c = '\r' then ['\\', 'r']
  else if c = '\n' then ['\\', 'n']
  else if c = '\'' || c = '"' || c = '\\' then ['\\', c]
  else if ' ' ≤ c && c ≤ '~' then [c]
  else hexEscape c

/-- A character inside a quoted text: the double quote and the backslash take a backslash, the null
character and the three usual control characters have a letter, and any other character that does
not show by itself is shown by its code point. -/
def escapeQuoted (c : Char) : List Char :=
  if c = '\x00' then ['\\', '0']
  else if c = '\t' then ['\\', 't']
  else if c = '\r' then ['\\', 'r']
  else if c = '\n' then ['\\', 'n']
  else if c = '"' || c = '\\' then ['\\', c]
  else if isVisible c then [c]
  else hexEscape c

/-- A text between double quotes. -/
def quoted (s : String) : String :=
  String.ofList ('"' :: s.toList.flatMap escapeQuoted ++ ['"'])

/-- Quoted texts between brackets, with commas. -/
def quotedList (ss : List String) : String :=
  "[" ++ ", ".intercalate (ss.map quoted) ++ "]"

end VhdlFrontEnd.Text
