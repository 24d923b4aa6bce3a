import VhdlFrontEnd.Piece
import VhdlFrontEnd.Source.Basic

/-!
# The tokens of a source

The code lines of a source are cut into pieces, each at its place. The tokens of the source are
those of the pieces and one for the end of the file; the reports are those of the faulty pieces.
-/

namespace VhdlFrontEnd

/-- A place in a source: the index of the line, the byte offset and the column on it. -/
structure Place where
  line : Nat
  offset : Nat
  column : Nat
deriving DecidableEq, Repr, Inhabited

namespace Place

def lineStart (line : Nat) : Place := ⟨line, 0, 1⟩

/-- The place after a text on the same line. -/
def after (tabWidth : Nat) (p : Place) (text : List Char) : Place :=
  ⟨p.line, p.offset + Text.byteLength text, p.column + Text.width tabWidth text⟩

/-- Line and column, both from one. -/
def position (p : Place) : Position := ⟨p.line + 1, p.column⟩

end Place

/-- A piece of a line and the places where it starts and ends. -/
structure Located where
  piece : Piece
  start : Place
  stop : Place
deriving DecidableEq, Repr, Inhabited

namespace Located

/-- The token that the piece is. -/
def token? (l : Located) : Option Token :=
  l.piece.kind?.map fun kind =>
    ⟨kind, l.start.position, ⟨l.start.line, l.start.offset, Text.byteLength l.piece.text⟩⟩

/-- The report of the piece's fault; it covers the columns of the piece. -/
def report? (l : Located) : Option Diagnostic :=
  l.piece.fault?.map fun fault =>
    { Diagnostic.error fault.code ⟨l.start.position, l.stop.column - l.start.column⟩
        (fault.message l.piece.text) with helps := fault.helps }

end Located

/-- The pieces at their places, from the place `start` on. -/
def locate (tabWidth : Nat) (start : Place) : List Piece → List Located
  | [] => []
  | p :: ps =>
    let stop := start.after tabWidth p.text
    ⟨p, start, stop⟩ :: locate tabWidth stop ps

/-- The pieces of lines, each line under the kind of the last token before it. -/
def scanLines (tabWidth : Nat) (previous? : Option TokenKind) : List (Nat × Line) → List Located
  | [] => []
  | (index, line) :: lines =>
    let pieces := Piece.pieces previous? line.text
    locate tabWidth (.lineStart index) pieces ++
      scanLines tabWidth (pieces.foldl Piece.previousAfter previous?) lines

/-- A source without any line has no tokens. -/
structure EmptySource where
deriving DecidableEq, Repr

def EmptySource.message (_ : EmptySource) : String := "source is empty"

namespace Source

/-- The columns of a tab on a code line: at least one. -/
def scanTabWidth (s : Source) : Nat := max s.tabWidth 1

/-- The pieces of the code lines at their places. -/
def scan (s : Source) : List Located := scanLines s.scanTabWidth none s.codeLines

/-- The token just past the last character of the last line, whatever its role. -/
def eofToken (s : Source) : Token :=
  let last := s.lines.lastIndex?.getD 0
  let text := ((s.lines.get? last).map (·.text)).getD []
  ⟨.eof, ⟨last + 1, Text.columnAfter s.tabWidth text⟩, ⟨last, Text.byteLength text, 0⟩⟩

/-- All tokens with the end of the file, and the reports. -/
def tokenize (s : Source) : Except EmptySource (List Token × List Diagnostic) :=
  if s.isEmpty then .error {}
  else .ok (s.scan.filterMap (·.token?) ++ [s.eofToken], s.scan.filterMap (·.report?))

end Source

/-- Locating keeps the pieces. -/
theorem map_piece_locate (tabWidth : Nat) (start : Place) (ps : List Piece) :
    (locate tabWidth start ps).map (·.piece) = ps := by
  induction ps generalizing start with
  | nil => rfl
  | cons p ps ih => simp [locate, ih]

end VhdlFrontEnd
