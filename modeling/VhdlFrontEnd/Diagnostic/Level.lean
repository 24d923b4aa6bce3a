/-!
# Severity levels

How severe a diagnostic is, how the level is named and painted, and when output is colored.
-/

namespace VhdlFrontEnd

/-- The severity of a diagnostic. -/
inductive Level
  /-- The source is invalid. -/
  | error
  /-- The source is suspicious and still accepted. -/
  | warning
  /-- Context for another diagnostic. -/
  | note
  /-- A way to mend the problem. -/
  | help
  /-- The front end itself is at fault. -/
  | bug
deriving DecidableEq, Repr, Inhabited

namespace Level

def all : List Level := [error, warning, note, help, bug]

/-- The levels run from error to help in falling severity, and faults of the tool come last. -/
def rank : Level → Nat
  | error => 0
  | warning => 1
  | note => 2
  | help => 3
  | bug => 4

/-- An error in the source and a fault of the front end both count as errors. -/
def isError : Level → Bool
  | error | bug => true
  | _ => false

def isWarning : Level → Bool
  | warning => true
  | _ => false

/-- The word that a report shows for the level. -/
def name : Level → String
  | error => "error"
  | warning => "warning"
  | note => "note"
  | help => "help"
  | bug => "internal error"

/-- The number of the level's terminal color. -/
def colorCode : Level → String
  | error => "31"
  | warning => "33"
  | note => "36"
  | help => "32"
  | bug => "35"

def paint (l : Level) (text : String) : String :=
  "\x1b[1;" ++ l.colorCode ++ "m" ++ text ++ "\x1b[0m"

end Level

/-- When output is colored. -/
inductive ColorMode
  /-- Only on a terminal. -/
  | auto
  | always
  | never
deriving DecidableEq, Repr, Inhabited

/-- Whether to color output, given whether it goes to a terminal. -/
def ColorMode.applies (m : ColorMode) (terminal : Bool) : Bool :=
  match m with
  | .auto => terminal
  | .always => true
  | .never => false

end VhdlFrontEnd
