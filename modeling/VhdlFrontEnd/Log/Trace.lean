import VhdlFrontEnd.Batch
import VhdlFrontEnd.Log.Event

/-!
# The events of a run

What the front end notes while it reads, cuts and outlines a source. The events follow from the
input and from the results of the phases; each phase notes its end, and a phase that fails notes
nothing after that.
-/

namespace VhdlFrontEnd.Trace

/-- A line got its role. -/
def classified (number : Nat) (line : Line) : LogEvent :=
  ⟨.trace, .lines, "classified line",
    [("line", toString number), ("category", line.category.name)]⟩

/-- The lines up to the first overlong one are noted, and all of them together if none is. -/
def classifying (settings : SourceSettings) (code : List Char) : List LogEvent :=
  let texts := Text.physicalLines code
  let short := texts.takeWhile (·.length ≤ settings.maxLineLength)
  let lines := (Source.readLines settings.tabWidth 1 none short).map (·.line)
  (lines.zipIdx 1).map (fun (line, number) => classified number line) ++
    if short.length = texts.length then
      [⟨.debug, .lines, "classified source", [("lines", toString lines.length),
        ("code_lines", toString (lines.countP (·.category.isCode)))]⟩]
    else []

/-- A file that can be read is noted with its size. -/
def loading (settings : SourceSettings) (disk : Disk) (path : String) : List LogEvent :=
  match disk.read path with
  | .ok bytes =>
    ⟨.debug, .lines, "read source file", [("path", path), ("bytes", toString bytes.size)]⟩ ::
      classifying settings (Text.decode bytes)
  | .error _ => []

/-- Each step to a further line of code is noted, and the tokens and errors at the end. -/
def tokenizing (source : Source) : List LogEvent :=
  match source.tokenize with
  | .ok (tokens, reports) =>
    source.codeLines.tail.map (fun (index, _) =>
      ⟨.trace, .lexer, "scanning line", [("line", toString (index + 1))]⟩) ++
    [⟨.debug, .lexer, "tokenized source", [("tokens", toString tokens.length),
      ("errors", toString (Diagnostic.errorCount reports))]⟩]
  | .error _ => []

/-- The events of tokenizing one file. -/
def lexing (settings : SourceSettings) (disk : Disk) (path : String) : List LogEvent :=
  loading settings disk path ++
    match Source.ofFile settings disk path with
    | .ok loaded => tokenizing loaded.source
    | .error _ => []

/-- The outline is noted with its size. -/
def outlining (outline : Outline) : LogEvent :=
  ⟨.debug, .parser, "parsed outline", [("units", toString outline.units.length),
    ("tokens", toString outline.tokenCount)]⟩

/-- The events of a run over one file. -/
def analysing (settings : SourceSettings) (disk : Disk) (path : String) : List LogEvent :=
  ⟨.debug, .driver, "front end started", [("path", path)]⟩ :: lexing settings disk path ++
    match Analysis.ofFile settings disk path with
    | .ok a =>
      [outlining a.outline,
        ⟨.debug, .driver, "front end finished", [("tokens", toString a.tokens.length),
          ("units", toString a.outline.units.length),
          ("diagnostics", toString a.reports.length)]⟩]
    | .error _ => []

/-- The workers cannot be started, so the files are tokenized one after the other. -/
def withoutWorkers (cause : String) : LogEvent :=
  ⟨.warn, .driver, "cannot start worker pool, lexing sequentially", [("err", cause)]⟩

/-- The events of tokenizing many files, each file in its turn. -/
def batch (session : Session) (disk : Disk) (poolFault? : Option String) (paths : List String) :
    List LogEvent :=
  (poolFault?.map withoutWorkers).toList ++ paths.flatMap (lexing session.settings disk) ++
    [⟨.debug, .driver, "lexed files", [("files", toString paths.length),
      ("jobs", toString session.jobs)]⟩]

end VhdlFrontEnd.Trace
