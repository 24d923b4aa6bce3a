import VhdlFrontEnd.Diagnostic.Basic
import VhdlFrontEnd.Source.Basic
import VhdlFrontEnd.Source.Comment

/-!
# The roles of lines

Each line gets its role from its text and from whether a block comment is open before it. A
reading of a line also says where a comment is open after it, and what there is to report.
-/

namespace VhdlFrontEnd.Source

/-- What one line tells: the line with its role, the opener of the comment that is open after
it, and the reports about it. -/
structure LineReading where
  line : Line
  open? : Option Position
  reports : List Diagnostic
deriving DecidableEq, Repr, Inhabited

/-- Where a line is read: its number, counted from one, and the columns of a tab. -/
structure LinePlace where
  tabWidth : Nat
  number : Nat
deriving DecidableEq, Repr

/-- The position on the line just after `before`. -/
def LinePlace.after (place : LinePlace) (before : List Char) : Position :=
  ⟨place.number, Text.columnAfter place.tabWidth before⟩

def trimEnd (cs : List Char) : List Char := (cs.reverse.dropWhile Text.isBlank).reverse

/-- The warning that `/*` after `before` opens nothing. -/
def nestedWarning (place : LinePlace) (before : List Char) : Diagnostic :=
  { Diagnostic.warning .nestedComment ⟨place.after before, 2⟩ "`/*` inside a block comment" with
    notes := ["block comments do not nest; the first `*/` closes the comment"] }

/-- The warning that the text `tail` after `before` is ignored. -/
def trailingWarning (place : LinePlace) (before tail : List Char) : Diagnostic :=
  { Diagnostic.warning .textAfterComment ⟨place.after before, tail.length⟩
      "text after the end of a block comment is ignored" with
    helps := ["move this text to its own line"] }

/-- The error that the comment opened at `start` never closes. -/
def unterminatedError (start : Position) : Diagnostic :=
  { Diagnostic.error .unterminatedComment ⟨start, 2⟩ "unterminated block comment" with
    helps := ["close the comment with `*/`"] }

/-- The first opener in the text of a comment at the start of a line is reported. -/
def checkNested (place : LinePlace) (region : List Char) : List Diagnostic :=
  match splitOpener? region with
  | some (front, _) => [nestedWarning place front]
  | none => []

/-- The text `region` after a closer is reported, unless it is blank or starts a comment. -/
def checkTrailing (place : LinePlace) (before region : List Char) : List Diagnostic :=
  let blanks := region.takeWhile Text.isBlank
  let tail := trimEnd (region.dropWhile Text.isBlank)
  if tail.isEmpty || ['-', '-'].isPrefixOf tail || ['/', '*'].isPrefixOf tail then []
  else [trailingWarning place (before ++ blanks) tail]

/-- The rest of a line after a closer: it holds no tokens, but an opener in it may open the next
comment. -/
def afterCloser (place : LinePlace) (before rest : List Char) : Option Position × List Diagnostic :=
  match unclosedOpener? rest with
  | some front => (some (place.after (before ++ front)), checkTrailing place before front)
  | none => (none, checkTrailing place before rest)

/-- A line before which no comment is open. -/
def readFresh (place : LinePlace) (text : List Char) : LineReading :=
  let blanks := text.takeWhile Text.isBlank
  match text.dropWhile Text.isBlank with
  | [] => ⟨⟨.blank, text⟩, none, []⟩
  | '-' :: '-' :: _ => ⟨⟨.lineComment, text⟩, none, []⟩
  | '/' :: '*' :: body =>
    match splitCloser? body with
    | some (inside, rest) =>
      let (opened, reports) := afterCloser place (blanks ++ '/' :: '*' :: inside ++ ['*', '/']) rest
      ⟨⟨.lineComment, text⟩, opened, reports⟩
    | none => ⟨⟨.blockCommentStart, text⟩, some (place.after blanks), []⟩
  | _ => ⟨⟨.code, text⟩, (unclosedOpener? text).map place.after, []⟩

/-- A line before which the comment opened at `start` is open. -/
def readInside (place : LinePlace) (start : Position) (text : List Char) : LineReading :=
  match splitCloser? text with
  | some (inside, rest) =>
    let (opened, reports) := afterCloser place (inside ++ ['*', '/']) rest
    ⟨⟨.blockCommentEnd, text⟩, opened, checkNested place inside ++ reports⟩
  | none => ⟨⟨.blockCommentBody, text⟩, some start, checkNested place text⟩

/-- One line, given the comment that is open before it. -/
def readLine (place : LinePlace) (open? : Option Position) (text : List Char) : LineReading :=
  match open? with
  | none => readFresh place text
  | some start => readInside place start text

/-- The lines from number `number` on, each under the comment that the line before leaves open. -/
def readLines (tabWidth number : Nat) (open? : Option Position) :
    List (List Char) → List LineReading
  | [] => []
  | text :: texts =>
    let reading := readLine ⟨tabWidth, number⟩ open? text
    reading :: readLines tabWidth (number + 1) reading.open? texts

/-- The opener of the comment that is open after the readings. -/
def openAfter (open? : Option Position) (readings : List LineReading) : Option Position :=
  (readings.getLast?.map (·.open?)).getD open?

theorem text_readFresh (place : LinePlace) (text : List Char) :
    (readFresh place text).line.text = text := by
  unfold readFresh; dsimp only
  repeat' split
  all_goals rfl

theorem text_readLine (place : LinePlace) (open? : Option Position) (text : List Char) :
    (readLine place open? text).line.text = text := by
  unfold readLine; split
  · exact text_readFresh place text
  · unfold readInside; split <;> rfl

/-- Reading gives each physical line back, whatever its role. -/
theorem texts_readLines (tabWidth number : Nat) (open? : Option Position)
    (texts : List (List Char)) :
    (readLines tabWidth number open? texts).map (·.line.text) = texts := by
  induction texts generalizing number open? with
  | nil => rfl
  | cons text texts ih => simp [readLines, text_readLine, ih]

end VhdlFrontEnd.Source
