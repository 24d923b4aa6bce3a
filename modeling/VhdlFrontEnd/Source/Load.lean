import VhdlFrontEnd.Disk
import VhdlFrontEnd.Source.Classify
import VhdlFrontEnd.Text.Decode

/-!
# Loading a source

A source is loaded from a text, from bytes or from a file. Only an unreadable file or an overlong
line stops it. Main statement: a loaded source has exactly the physical lines of its text.
-/

namespace VhdlFrontEnd

/-- Why a source could not be loaded. -/
inductive LoadFault
  | unreadable (path : String) (cause : PathFault)
  /-- A line, counted from one, has `length` characters where `limit` are allowed. -/
  | lineTooLong (line length limit : Nat)
deriving DecidableEq, Repr, Inhabited

def LoadFault.message : LoadFault → String
  | unreadable path cause => "cannot read `" ++ path ++ "`: " ++ cause.message
  | lineTooLong line length limit =>
    "line " ++ toString line ++ " is " ++ toString length ++
      " characters long (maximum is " ++ toString limit ++ ")"

/-- A source and what there is to report about its lines. -/
structure Loaded where
  source : Source
  reports : List Diagnostic
deriving DecidableEq, Repr, Inhabited

namespace Source

/-- The first line that has more than `limit` characters. -/
def overlong? (limit : Nat) (texts : List (List Char)) : Option LoadFault :=
  (texts.zipIdx 1).findSome? fun (text, number) =>
    if limit < text.length then some (.lineTooLong number text.length limit) else none

/-- The source with the given physical lines. -/
def ofLines (tabWidth : Nat) (texts : List (List Char)) : Loaded :=
  let readings := readLines tabWidth 1 none texts
  { source := ⟨Arena.ofList (readings.map (·.line)), tabWidth⟩
    reports := readings.flatMap (·.reports) ++
      ((openAfter none readings).map unterminatedError).toList }

/-- The source of a text. -/
def ofText (settings : SourceSettings) (code : List Char) : Except LoadFault Loaded :=
  let texts := Text.physicalLines code
  match overlong? settings.maxLineLength texts with
  | some fault => .error fault
  | none => .ok (ofLines settings.tabWidth texts)

/-- The source of a file's bytes. -/
def ofBytes (settings : SourceSettings) (bytes : ByteArray) : Except LoadFault Loaded :=
  ofText settings (Text.decode bytes)

def ofFile (settings : SourceSettings) (disk : Disk) (path : String) : Except LoadFault Loaded :=
  match disk.read path with
  | .ok bytes => ofBytes settings bytes
  | .error cause => .error (.unreadable path cause)

/-- The lines of a source are the physical lines it was made of. -/
theorem texts_ofLines (tabWidth : Nat) (texts : List (List Char)) :
    (ofLines tabWidth texts).source.lines.toList.map (·.text) = texts := by
  simpa [ofLines, Function.comp_def] using texts_readLines tabWidth 1 none texts

/-- A loaded source keeps every physical line of its text. -/
theorem texts_ofText {settings : SourceSettings} {code : List Char} {loaded : Loaded}
    (h : ofText settings code = .ok loaded) :
    loaded.source.lines.toList.map (·.text) = Text.physicalLines code := by
  unfold ofText at h
  dsimp only at h
  split at h
  · exact nomatch h
  · cases h; exact texts_ofLines _ _

end Source

end VhdlFrontEnd
