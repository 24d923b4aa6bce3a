import VhdlFrontEnd.Command.Arguments
import VhdlFrontEnd.Command.Output
import VhdlFrontEnd.Diagnostic.Render
import VhdlFrontEnd.Log.Trace
import VhdlFrontEnd.Settings

/-!
# Runs of the program

A run reads its command line and its settings, and then each of its inputs. What is wrong with one
input is reported and does not keep the run from the next. The run succeeds if every input could
be read and no error was found.
-/

namespace VhdlFrontEnd.Command

/-- What the program sees of the machine. -/
structure Host where
  disk : Disk
  environment : Environment := []
  /-- The number of processors. -/
  cpus : Nat := 1
  /-- Why no workers can be started, if none can. -/
  poolFault? : Option String := none

/-- What a run writes, and the status that it ends with. -/
structure Run where
  output : List Output
  status : Nat
deriving DecidableEq, Repr, Inhabited

namespace Run

/-- All that goes to the standard output. -/
def resultText (r : Run) : String := String.join (r.output.map (·.resultText))

/-- All that goes to the standard error, every log line at the given time. -/
def reportText (r : Run) (time : String) : String := String.join (r.output.map (·.reportText time))

/-- A run that ends with a failure after what it wrote. -/
def failed (output : List Output) (message : String) (causes : List String) : Run :=
  ⟨output ++ [.report (failure message causes)], 1⟩

end Run

/-- What became of one input. -/
structure Processed where
  path : String
  output : List Output
  /-- The errors and the warnings that were shown. -/
  errors : Nat := 0
  warnings : Nat := 0
  /-- The input could be read. -/
  readable : Bool := true
  /-- A report could not be shown. -/
  fault? : Option LineOutOfRange := none
deriving DecidableEq, Repr, Inhabited

/-- The texts of reports up to the first that cannot be shown. -/
def rendered (style : Renderer) (file : String) (lines : Array (List Char)) :
    List Diagnostic → List String × Option LineOutOfRange
  | [] => ([], none)
  | d :: ds =>
    match style.render file lines d with
    | .ok text =>
      let (texts, fault?) := rendered style file lines ds
      (text :: texts, fault?)
    | .error fault => ([], some fault)

/-- An input that could be read: first its reports are shown, then its result. -/
def processedSource (style : Renderer) (path : String) (l : Lexed) (result : List Output) :
    Processed :=
  let shown := Diagnostic.reportable l.reports
  match rendered style path l.source.texts shown with
  | (texts, none) =>
    { path, output := texts.map .report ++ result
      errors := Diagnostic.errorCount shown, warnings := Diagnostic.warningCount shown }
  | (texts, some fault) => { path, output := texts.map .report, fault? := some fault }

/-- An input that could not be read. -/
def processedFault (path : String) (fault : RunFault) : Processed :=
  { path, output := [.report (path ++ ": error: " ++ fault.message ++ "\n")], readable := false }

/-- The title over the result of one of several inputs. -/
def title (several : Bool) (path : String) : String :=
  if several then "==> " ++ path ++ " <==\n" else ""

/-- Position, kind and spelling of a token on one line. -/
def renderToken (source : Source) (t : Token) : String :=
  t.position.render ++ " " ++ t.kind.name ++
    (if t.kind = .eof then "" else " " ++ String.ofList (source.spelling t)) ++ "\n"

def renderTokens (l : Lexed) : String := String.join (l.tokens.map (renderToken l.source))

/-- How a run treats its inputs. -/
structure Plan where
  options : Options
  session : Session
  style : Renderer
  logging : Logging

namespace Plan

def several (p : Plan) : Bool := 1 < p.options.sources.length

/-- An input whose tokens are printed. -/
def processTokens (p : Plan) : String × Except RunFault Lexed → Processed
  | (path, .ok l) =>
    processedSource p.style path l [.result (title p.several path ++ renderTokens l)]
  | (path, .error fault) => processedFault path fault

/-- An input that is outlined. The outline is printed if it is asked for. -/
def processOutline (p : Plan) (disk : Disk) (path : String) : Processed :=
  let events := p.logging.lines (Trace.analysing p.session.settings disk path)
  let processed := match Analysis.ofFile p.session.settings disk path with
    | .ok a =>
      processedSource p.style path a.toLexed (if p.options.wantsOutline then
        [.result (title p.several path ++ a.outline.render ++ "\n")] else [])
    | .error fault => processedFault path fault
  { processed with output := events ++ processed.output }

/-- The inputs one after the other, up to the first with a report that cannot be shown. -/
def untilFault : List Processed → List Processed
  | [] => []
  | processed :: rest =>
    if processed.fault?.isSome then [processed] else processed :: untilFault rest

/-- The log lines before the inputs, and what becomes of each of them. -/
def process (p : Plan) (host : Host) : List Output × List Processed :=
  let paths := p.options.sources
  if p.options.emit? = some .tokens then
    (p.logging.lines (Trace.batch p.session host.disk host.poolFault? paths),
      untilFault ((p.session.lexMany host.disk paths).entries.map p.processTokens))
  else ([], untilFault (paths.map (p.processOutline host.disk)))

/-- The numbers of errors and warnings, if there are any. -/
def summary (errors warnings : Nat) : List Output :=
  if 0 < errors ∨ 0 < warnings then
    [.report (toString errors ++ " error(s), " ++ toString warnings ++ " warning(s)\n")]
  else []

/-- A run over inputs that can be looked at. -/
def execute (p : Plan) (host : Host) : Run :=
  let starting : LogEvent := ⟨.debug, .commandLine, "starting",
    [("files", toString p.options.sources.length), ("jobs", toString p.session.jobs)]⟩
  let (before, processed) := p.process host
  let output := p.logging.lines [starting] ++ before ++ processed.flatMap (·.output)
  let errors := processed.foldl (· + ·.errors) 0
  let warnings := processed.foldl (· + ·.warnings) 0
  match processed.findSome? fun q => q.fault?.map (q.path, ·) with
  | some (path, fault) =>
    .failed output ("Failed to render diagnostic for " ++ path) [fault.message]
  | none =>
    ⟨output ++ summary errors warnings,
      if errors = 0 ∧ processed.all (·.readable) then 0 else 1⟩

end Plan

/-- Why the inputs cannot be looked at. -/
inductive InputFault
  | none
  | directory (path : String)
deriving DecidableEq, Repr, Inhabited

def InputFault.message : InputFault → String
  | none => "Validation error: no input files"
  | directory path => "File operation failed: `" ++ path ++ "` is a directory"

/-- There is at least one input, and none is a directory. -/
def checkInputs (disk : Disk) (paths : List String) : Except InputFault Unit :=
  if paths.isEmpty then .error .none
  else
    match paths.find? disk.isDirectory with
    | some path => .error (.directory path)
    | none => .ok ()

/-- The logging of a run. A filter in the environment wins over the options; one that cannot be
read does not count. -/
def loggingOf (env : Environment) (o : Options) : Logging where
  filter :=
    let fallback := LogFilter.upTo (if o.verbose then .debug else .info)
    match (env.value? "RUST_LOG").map LogFilter.parse with
    | some (.ok filter) => filter
    | _ => fallback
  style := !o.noColor

/-- The settings of a run: from the file that is asked for, or from the first that is found. -/
def settingsOf (host : Host) (o : Options) : Except SettingsFault Settings :=
  match o.config? with
  | some path => Settings.load host.disk host.cpus path
  | none =>
    Settings.search host.disk host.cpus (Settings.places (host.environment.value? "HOME")
      (host.environment.value? "XDG_CONFIG_HOME"))

/-- How the inputs are treated under the options and settings. Neither stream is a terminal. -/
def planOf (env : Environment) (o : Options) (s : Settings) : Plan where
  options := o
  session := s.session o.jobs?
  style :=
    let mode := if o.noColor || !s.color then ColorMode.never else ColorMode.auto
    ⟨mode.applies false, s.showSnippets⟩
  logging := loggingOf env o

/-- A run under options that could be read. -/
def runWith (host : Host) (o : Options) : Run :=
  match settingsOf host o with
  | .error fault => .failed [] "Failed to load configuration" fault.messages
  | .ok settings =>
    match checkInputs host.disk o.sources with
    | .error fault => .failed [] fault.message []
    | .ok () => (planOf host.environment o settings).execute host

def versionText : String := "vlark version v0.3.0\n"

def helpText : String :=
  "Tokenize and outline VHDL source files\n\nUsage: vlark [OPTIONS] [FILE]...\n\nOptions:\n" ++
    "  -f, --file <FILE>      Source file to read (may be repeated)\n" ++
    "      --print-ast        Print the design-unit outline of each file\n" ++
    "      --emit <EMIT>      Print an intermediate result: tokens, ast\n" ++
    "  -j, --jobs <JOBS>      Worker threads for lexing several files\n" ++
    "  -v, --verbose          Enable verbose output\n" ++
    "  -c, --config <CONFIG>  Path to configuration file\n" ++
    "      --no-color         Disable color output\n" ++
    "  -h, --help             Print help\n" ++
    "  -V, --version          Print version\n"

/-- A run of the program with some arguments. -/
def run (host : Host) (arguments : List String) : Run :=
  match Options.read host.environment arguments with
  | .ok o => runWith host o
  | .error .help => ⟨[.result helpText], 0⟩
  | .error .version => ⟨[.result versionText], 0⟩
  | .error (.usage fault) =>
    ⟨[.report ("error: " ++ fault.message ++ "\n\nFor more information, try '--help'.\n")], 2⟩

/-- The paths that a run with these arguments may look at. -/
def pathsOf (env : Environment) (arguments : List String) : List String :=
  match Options.read env arguments with
  | .ok o =>
    o.sources ++ (o.config?.elim (Settings.places (env.value? "HOME")
      (env.value? "XDG_CONFIG_HOME")) ([·]))
  | .error _ => []

/-- A run without inputs fails and looks at none. -/
theorem checkInputs_nil (disk : Disk) : checkInputs disk [] = .error .none := rfl

end VhdlFrontEnd.Command
