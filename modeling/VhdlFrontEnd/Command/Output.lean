import VhdlFrontEnd.Log.Filter
import VhdlFrontEnd.Log.Line

/-!
# What the program writes

Results go to the standard output, reports and log lines to the standard error, each in the order
in which they arise.
-/

namespace VhdlFrontEnd.Command

/-- Something that the program writes. -/
inductive Output
  /-- A text for the standard output. -/
  | result (text : String)
  /-- A text for the standard error. -/
  | report (text : String)
  /-- A log line for the standard error. -/
  | log (style : Bool) (event : LogEvent)
deriving DecidableEq, Repr, Inhabited

namespace Output

/-- The text for the standard output. -/
def resultText : Output → String
  | result text => text
  | _ => ""

/-- The text for the standard error, at the given time. -/
def reportText (time : String) : Output → String
  | result _ => ""
  | report text => text
  | log style event => event.render style time

end Output

/-- Which events are written, and whether their lines are styled. -/
structure Logging where
  filter : LogFilter
  style : Bool
deriving DecidableEq, Repr, Inhabited

/-- The log lines of those events that the filter allows. -/
def Logging.lines (l : Logging) (events : List LogEvent) : List Output :=
  (events.filter l.filter.allows).map (.log l.style)

/-- A message with its further lines as far in as the first. -/
def indented (before inset : String) (message : String) : String :=
  before ++ (String.ofList ['\n'] ++ inset).intercalate
    ((message.toList.splitOn '\n').map String.ofList) ++ "\n"

/-- The report of a failure with its causes, which are numbered if there are several. -/
def failure (message : String) (causes : List String) : String :=
  "Error: " ++ message ++ "\n" ++
    match causes with
    | [] => ""
    | [cause] => "\nCaused by:\n" ++ indented "    " "    " cause
    | causes => "\nCaused by:\n" ++ String.join (causes.zipIdx.map fun (cause, i) =>
        indented ("    " ++ toString i ++ ": ") "       " cause)

end VhdlFrontEnd.Command
