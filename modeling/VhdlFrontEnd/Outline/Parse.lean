import VhdlFrontEnd.Diagnostic.Basic
import VhdlFrontEnd.Outline.Statement
import VhdlFrontEnd.Source.Basic

/-!
# Reading the outline

The tokens are read as a sequence of statements, each of which may give a unit or a report. The
tokens up to the end of the file are all that counts.
-/

namespace VhdlFrontEnd.Outline

/-- The statements of a token sequence that holds no end of the file. -/
def statements (spelling : Token → String) : List Token → List Statement
  | [] => []
  | first :: rest =>
    (statement spelling first rest).1 :: statements spelling (statement spelling first rest).2
termination_by tokens => tokens.length
decreasing_by exact length_statement_lt spelling first rest

/-- Where the tokens end: the kind that stands there is the end of the file, whether there is a
token for it or not. -/
def endSpan (source : Source) (tokens : List Token) : Span :=
  match tokens.find? (·.kind = .eof) with
  | some t => ⟨t.position, (source.spelling t).length⟩
  | none => .point ((tokens.getLast?.map (·.position)).getD .start)

/-- The report that `expected` does not stand before the tokens `rest`. At the end of the file it
gives way to any other report there. -/
def expectedReport (source : Source) (atEnd : Span) (d : Deviation) : Diagnostic :=
  let message (found : TokenKind) :=
    "expected " ++ d.expected.render ++ ", found " ++ found.render
  match d.rest with
  | t :: _ =>
    .error .expectedToken ⟨t.position, (source.spelling t).length⟩ (message t.kind)
  | [] => { Diagnostic.error .expectedToken atEnd (message .eof) with fallback := true }

/-- The report that a token cannot start a statement. -/
def unexpectedReport (source : Source) (t : Token) : Diagnostic :=
  .error .unexpectedToken ⟨t.position, (source.spelling t).length⟩ ("unexpected " ++ t.kind.render)

/-- The unit that a statement declares. -/
def Statement.unit? : Statement → Option DesignUnit
  | .unit u => some u
  | _ => none

/-- What there is to report about a statement. -/
def Statement.report? (source : Source) (atEnd : Span) : Statement → Option Diagnostic
  | .malformed d => some (expectedReport source atEnd d)
  | .unexpected t => some (unexpectedReport source t)
  | _ => none

/-- The outline of a token sequence, and the reports. Tokens after the end of the file are
counted and else ignored. -/
def parse (source : Source) (tokens : List Token) : Outline × List Diagnostic :=
  let found := statements (fun t => String.ofList (source.spelling t))
    (tokens.takeWhile (·.kind ≠ .eof))
  let atEnd := endSpan source tokens
  ({ units := found.filterMap (·.unit?)
     tokenCount := tokens.countP (·.kind ≠ .eof) },
   found.filterMap (·.report? source atEnd))

end VhdlFrontEnd.Outline
