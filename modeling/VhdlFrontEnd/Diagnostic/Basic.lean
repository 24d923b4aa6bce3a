import VhdlFrontEnd.Position
import VhdlFrontEnd.Diagnostic.Level

/-!
# Diagnostics

A diagnostic says what is wrong and where. The front end never prints one at the point of
failure; it collects them in the order in which they arise.
-/

namespace VhdlFrontEnd

/-- The number under which a kind of diagnostic is filed, with `E` for errors and `W` for
warnings in front. -/
structure Code where
  letters : String
  number : Nat
deriving DecidableEq, Repr, Inhabited

namespace Code

/-- The number in at least four digits after the letters. -/
def render (c : Code) : String :=
  let digits := toString c.number
  c.letters ++ String.ofList (List.replicate (4 - digits.length) '0') ++ digits

/-- The code with the name of its type around it, for logs of values. -/
def describe (c : Code) : String := "DiagnosticCode(" ++ c.render ++ ")"

/-- A character that starts no token. -/
def unknownCharacter : Code := ⟨"E", 1001⟩

def unterminatedString : Code := ⟨"E", 1002⟩

def invalidNumber : Code := ⟨"E", 1003⟩

/-- A word that is neither a keyword nor an identifier. -/
def invalidIdentifier : Code := ⟨"E", 1004⟩

def unterminatedComment : Code := ⟨"E", 1005⟩

def invalidBitString : Code := ⟨"E", 1006⟩

/-- A malformed extended identifier. -/
def invalidLiteral : Code := ⟨"E", 1007⟩

/-- A token that cannot start a statement. -/
def unexpectedToken : Code := ⟨"E", 2001⟩

/-- A header in which a required token is missing. -/
def expectedToken : Code := ⟨"E", 2002⟩

/-- Text after the end of a block comment. -/
def textAfterComment : Code := ⟨"W", 1001⟩

def nestedComment : Code := ⟨"W", 1002⟩

end Code

/-- A line of the source with some of its columns underlined. -/
structure Snippet where
  line : String
  number : Nat
  startColumn : Nat
  endColumn : Nat
  label? : Option String := none
deriving DecidableEq, Repr, Inhabited

/-- The line on which a span sits, with the span underlined. -/
def Snippet.ofSpan (line : String) (s : Span) : Snippet :=
  ⟨line, s.start.line, s.start.column, s.endColumn, none⟩

/-- One report of the front end. -/
structure Diagnostic where
  level : Level
  message : String
  span : Span := Span.nowhere
  code? : Option Code := none
  notes : List String := []
  helps : List String := []
  snippets : List Snippet := []
  /-- The tool is at fault and not the source. -/
  internal : Bool := false
  /-- Only worth showing where nothing better was reported. -/
  fallback : Bool := false
deriving DecidableEq, Repr, Inhabited

namespace Diagnostic

def position (d : Diagnostic) : Position := d.span.start

def error (code : Code) (span : Span) (message : String) : Diagnostic :=
  { level := .error, message, span, code? := some code }

def warning (code : Code) (span : Span) (message : String) : Diagnostic :=
  { level := .warning, message, span, code? := some code }

/-- Two diagnostics report the same problem when they agree on position and message. -/
def sameReport (a b : Diagnostic) : Bool := a.position == b.position && a.message == b.message

/-- Position, level, code and message on one line. -/
def render (d : Diagnostic) : String :=
  d.span.render ++ ": " ++ d.level.name ++
    (d.code?.elim "" fun c => "[" ++ c.render ++ "]") ++ ": " ++ d.message

def errorCount (ds : List Diagnostic) : Nat := ds.countP (·.level.isError)

def warningCount (ds : List Diagnostic) : Nat := ds.countP (·.level.isWarning)

def hasErrors (ds : List Diagnostic) : Bool := ds.any (·.level.isError)

theorem sameReport_iff {a b : Diagnostic} :
    a.sameReport b ↔ a.position = b.position ∧ a.message = b.message := by
  simp [sameReport]

@[simp] theorem errorCount_append (a b : List Diagnostic) :
    errorCount (a ++ b) = errorCount a + errorCount b := List.countP_append

theorem hasErrors_iff_errorCount_pos (ds : List Diagnostic) :
    hasErrors ds ↔ 0 < errorCount ds := by
  simp [hasErrors, errorCount, List.countP_pos_iff]

end Diagnostic

end VhdlFrontEnd
