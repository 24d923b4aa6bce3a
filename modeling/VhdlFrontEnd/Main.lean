import Std.Time
import VhdlFrontEnd.Command.Run

/-!
# The program

The outer layer: the files that a run may look at are read first, then the run is computed, and
what it writes goes to the two streams.
-/

namespace VhdlFrontEnd.Program

open Command (Environment Host Output)

/-- The number of a fault, which may come with a minus sign as a word of 32 bits. -/
def faultNumber (code : UInt32) : UInt32 := if code < 0x80000000 then code else 0 - code

/-- The fault that the system reports. -/
def faultOf : IO.Error → PathFault
  | .noFileOrDirectory _ _ _ => .missing
  | .inappropriateType _ code details | .permissionDenied _ code details
  | .resourceExhausted _ code details | .invalidArgument _ code details =>
    match faultNumber code with
    | 20 => .notDirectory
    | 21 => .isDirectory
    | 36 => .nameTooLong
    | number => .other (details ++ " (os error " ++ toString number ++ ")")
  | other => .other (toString other)

/-- What a path leads to. -/
def entryAt (path : String) : IO (Except PathFault Entry) := do
  match ← (IO.FS.readBinFile path).toBaseIO with
  | .ok bytes => return .ok (.file bytes)
  | .error e =>
    match faultOf e with
    | .isDirectory => return .ok .directory
    | fault => return .error fault

/-- The part of the file system at some paths. -/
def diskAt (paths : List String) : IO Disk := do
  let entries ← paths.mapM fun path => return (path, ← entryAt path)
  return ⟨fun path => (entries.lookup path).getD (.error .missing)⟩

/-- The variables that the program knows. -/
def variableNames : List String :=
  ["HOME", "XDG_CONFIG_HOME", "RUST_LOG", "VLARK_VERBOSE", "VLARK_CONFIG", "VLARK_NO_COLOR"]

/-- The values of these variables. -/
def environment : IO Environment :=
  variableNames.filterMapM fun name => return (← IO.getEnv name).map (name, ·)

/-- The number of processors that the system lists. -/
def processors : IO Nat := do
  match ← (IO.FS.readFile "/proc/cpuinfo").toBaseIO with
  | .ok text => return max 1 ((text.splitOn "\n").countP (·.startsWith "processor"))
  | .error _ => return 1

/-- The time of day in universal time. -/
def timeText : IO String := do
  let now ← Std.Time.Timestamp.now
  return (Std.Time.DateTime.ofTimestamp now Std.Time.TimeZone.ZoneRules.UTC).format
    "uuuu-MM-dd'T'HH:mm:ss.SSSSSS'Z'"

/-- Writes one piece of output. -/
def write (output : Output) : IO Unit := do
  (← IO.getStdout).putStr output.resultText
  (← IO.getStderr).putStr (output.reportText (← timeText))

end VhdlFrontEnd.Program

/-- Runs the program with the arguments of the command line. -/
def main (arguments : List String) : IO UInt32 := do
  let environment ← VhdlFrontEnd.Program.environment
  let disk ← VhdlFrontEnd.Program.diskAt (VhdlFrontEnd.Command.pathsOf environment arguments)
  let cpus ← VhdlFrontEnd.Program.processors
  let run := VhdlFrontEnd.Command.run { disk, environment, cpus } arguments
  run.output.forM VhdlFrontEnd.Program.write
  return run.status.toUInt32
