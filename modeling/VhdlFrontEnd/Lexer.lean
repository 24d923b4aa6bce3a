import VhdlFrontEnd.Scan

/-!
# Tokens one at a time

A lexer hands out the tokens of a source one by one, and knows the place that it has reached.
It walks along the located pieces of the code lines, so its tokens are those of the source.
-/

namespace VhdlFrontEnd

/-- The pieces that are still to come, the place reached, and the reports so far. -/
structure Lexer where
  source : Source
  ahead : List Located
  place : Place
  /-- The end of the file has been handed out. -/
  finished : Bool
  reports : List Diagnostic

namespace Lexer

/-- Before the first token: at the start of the first code line, or of the first line if no line
holds code. A source without lines has no tokens to hand out. -/
def start (s : Source) : Lexer :=
  { source := s
    ahead := s.scan
    place := .lineStart ((s.codeLines.head?.map (·.1)).getD 0)
    finished := s.isEmpty
    reports := [] }

/-- Past one piece. -/
def pass (l : Lexer) (piece : Located) (ahead : List Located) : Lexer :=
  { l with ahead, place := piece.stop, reports := l.reports ++ piece.report?.toList }

/-- Past the pieces up to the next token, with that token; none if no token is left. -/
def advance (l : Lexer) : List Located → Option Token × Lexer
  | [] => (none, { l with ahead := [] })
  | piece :: ahead =>
    match piece.token? with
    | some token => (some token, l.pass piece ahead)
    | none => (l.pass piece ahead).advance ahead

/-- The next token. After all others the end of the file is handed out, once. -/
def next (l : Lexer) : Option Token × Lexer :=
  if l.finished then (none, l)
  else
    match l.advance l.ahead with
    | (some token, l) => (some token, l)
    | (none, l) => (some l.source.eofToken, { l with finished := true })

/-- Past pieces that are gaps. -/
def passGaps (l : Lexer) : List Located → Lexer
  | [] => l
  | piece :: ahead =>
    if piece.piece.isGap && piece.start.line == l.place.line then
      (l.pass piece ahead).passGaps ahead
    else l

/-- Past the blanks and comments that come next on the line. -/
def skipGaps (l : Lexer) : Lexer := l.passGaps l.ahead

end Lexer

end VhdlFrontEnd
