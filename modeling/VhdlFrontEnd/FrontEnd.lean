import VhdlFrontEnd.Diagnostic.Reportable
import VhdlFrontEnd.Outline.Parse
import VhdlFrontEnd.Scan
import VhdlFrontEnd.Source.Load

/-!
# Runs of the front end

A run reads a source, cuts it into tokens and outlines it. The reports of the three phases are
one list, in that order. Only a source that cannot be read or that has no line stops a run.
-/

namespace VhdlFrontEnd

/-- Why a run stopped. -/
inductive RunFault
  | load (fault : LoadFault)
  | tokenize (fault : EmptySource)
deriving DecidableEq, Repr, Inhabited

namespace RunFault

def message : RunFault → String
  | load fault => fault.message
  | tokenize fault => fault.message

/-- The phase that stopped. -/
def phase : RunFault → String
  | load _ => "load"
  | tokenize _ => "tokenize"

end RunFault

/-- A source cut into tokens, with the reports about its lines and its tokens. -/
structure Lexed where
  source : Source
  tokens : List Token
  reports : List Diagnostic
deriving DecidableEq, Repr, Inhabited

/-- A source with its tokens and its outline, and all reports about it. -/
structure Analysis extends Lexed where
  outline : Outline
deriving DecidableEq, Repr, Inhabited

namespace Lexed

/-- The tokens of a loaded source. -/
def ofLoaded (loaded : Loaded) : Except RunFault Lexed :=
  match loaded.source.tokenize with
  | .ok (tokens, reports) => .ok ⟨loaded.source, tokens, loaded.reports ++ reports⟩
  | .error fault => .error (.tokenize fault)

/-- The tokens of a source, if it could be loaded. -/
def ofLoad : Except LoadFault Loaded → Except RunFault Lexed
  | .ok loaded => ofLoaded loaded
  | .error fault => .error (.load fault)

def ofFile (settings : SourceSettings) (disk : Disk) (path : String) : Except RunFault Lexed :=
  ofLoad (Source.ofFile settings disk path)

/-- The number of errors that are shown. -/
def errorCount (l : Lexed) : Nat := Diagnostic.reportableErrors l.reports

/-- Some error is shown. -/
def hasErrors (l : Lexed) : Bool := l.errorCount != 0

end Lexed

namespace Analysis

def ofLexed (lexed : Lexed) : Analysis :=
  let (outline, reports) := Outline.parse lexed.source lexed.tokens
  { source := lexed.source, tokens := lexed.tokens, reports := lexed.reports ++ reports, outline }

/-- A run over a text. -/
def ofText (settings : SourceSettings) (code : List Char) : Except RunFault Analysis :=
  (Lexed.ofLoad (Source.ofText settings code)).map ofLexed

def ofBytes (settings : SourceSettings) (bytes : ByteArray) : Except RunFault Analysis :=
  (Lexed.ofLoad (Source.ofBytes settings bytes)).map ofLexed

def ofFile (settings : SourceSettings) (disk : Disk) (path : String) : Except RunFault Analysis :=
  (Lexed.ofFile settings disk path).map ofLexed

end Analysis

end VhdlFrontEnd
