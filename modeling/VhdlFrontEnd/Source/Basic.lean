import VhdlFrontEnd.Arena
import VhdlFrontEnd.Token.Basic

/-!
# Sources

A source is the list of its physical lines, each with its syntactic role. Blank lines and
comments are kept, so the line with index `n` is always line `n + 1` of the input, and a text
range always resolves to the text that it was taken from.
-/

namespace VhdlFrontEnd

/-- The syntactic role of a physical line. -/
inductive Category
  | blank
  /-- Starts with `--`, or with a block comment that closes on the line. -/
  | lineComment
  /-- Starts with a block comment that stays open. -/
  | blockCommentStart
  | blockCommentBody
  | blockCommentEnd
  /-- Anything else; the only lines that hold tokens. -/
  | code
deriving DecidableEq, Repr, Inhabited

namespace Category

def all : List Category :=
  [blank, lineComment, blockCommentStart, blockCommentBody, blockCommentEnd, code]

def name : Category → String
  | blank => "Blank"
  | lineComment => "LineComment"
  | blockCommentStart => "BlockCommentStart"
  | blockCommentBody => "BlockCommentBody"
  | blockCommentEnd => "BlockCommentEnd"
  | code => "Code"

/-- The line holds tokens. -/
def isCode : Category → Bool
  | code => true
  | _ => false

def isComment : Category → Bool
  | lineComment | blockCommentStart | blockCommentBody | blockCommentEnd => true
  | _ => false

end Category

/-- A physical line without its line end. -/
structure Line where
  category : Category
  text : List Char
deriving DecidableEq, Repr, Inhabited

/-- The settings for reading a source. -/
structure SourceSettings where
  /-- The most characters a line may have. -/
  maxLineLength : Nat := 4096
  /-- The columns of a tab. -/
  tabWidth : Nat := 1
deriving DecidableEq, Repr, Inhabited

/-- The settings with another tab width; a tab is at least one column wide. -/
def SourceSettings.withTabWidth (s : SourceSettings) (tabWidth : Nat) : SourceSettings :=
  { s with tabWidth := max tabWidth 1 }

/-- The lines of a source, and the columns that a tab takes in it. -/
structure Source where
  lines : Arena Line
  tabWidth : Nat
deriving DecidableEq, Repr, Inhabited

namespace Source

def lineCount (s : Source) : Nat := s.lines.size

def isEmpty (s : Source) : Bool := s.lines.isEmpty

/-- The number of lines in a role. -/
def count (s : Source) (c : Category) : Nat := s.lines.toList.countP (·.category == c)

/-- The lines that hold tokens, with their indices. -/
def codeLines (s : Source) : List (Nat × Line) :=
  s.lines.enumerated.filter fun (_, line) => line.category.isCode

def texts (s : Source) : Array (List Char) := s.lines.items.map (·.text)

/-- The text of a line, counted from one. -/
def lineText? (s : Source) (number : Nat) : Option (List Char) :=
  match number with
  | 0 => none
  | n + 1 => (s.lines.get? n).map (·.text)

/-- The text in a range; empty if the range does not lie on a line, between characters. -/
def slice (s : Source) (r : TextRange) : List Char :=
  ((s.lines.get? r.line).bind fun line => Text.slice? line.text r.start r.length).getD []

def spelling (s : Source) (t : Token) : List Char := s.slice t.range

def sameText (s : Source) (t u : Token) : Bool := s.spelling t == s.spelling u

end Source

end VhdlFrontEnd
