/-!
# Log events

While it runs, the front end notes what it does. An event names the component that it comes from
and carries values under names.
-/

namespace VhdlFrontEnd

/-- How important an event is. -/
inductive LogLevel
  | error
  | warn
  | info
  | debug
  | trace
deriving DecidableEq, Repr, Inhabited

namespace LogLevel

/-- All levels, the most important one first. -/
def all : List LogLevel := [error, warn, info, debug, trace]

/-- The number of the level, from one on; zero stands for no events at all. -/
def rank : LogLevel → Nat
  | error => 1
  | warn => 2
  | info => 3
  | debug => 4
  | trace => 5

/-- The level in a filter, in any case. -/
def name : LogLevel → String
  | error => "error"
  | warn => "warn"
  | info => "info"
  | debug => "debug"
  | trace => "trace"

/-- The level on a log line, in five columns. -/
def label : LogLevel → String
  | error => "ERROR"
  | warn => " WARN"
  | info => " INFO"
  | debug => "DEBUG"
  | trace => "TRACE"

/-- The number of the level's terminal color. -/
def colorCode : LogLevel → String
  | error => "31"
  | warn => "33"
  | info => "32"
  | debug => "34"
  | trace => "35"

end LogLevel

/-- A part of the program that events come from. -/
inductive Component
  | lines
  | lexer
  | parser
  | driver
  | commandLine
deriving DecidableEq, Repr, Inhabited

/-- The name under which a filter knows the component. The names of nested components start with
the names of those around them. -/
def Component.path : Component → String
  | lines => "vlark_lex::line"
  | lexer => "vlark_lex::lexer::core"
  | parser => "vlark_par"
  | driver => "vlark_drv"
  | commandLine => "vlark"

/-- Something that happened. -/
structure LogEvent where
  level : LogLevel
  component : Component
  message : String
  fields : List (String × String) := []
deriving DecidableEq, Repr, Inhabited

/-- The names under which a filter finds what the event carries. The message is one of them. -/
def LogEvent.fieldNames (e : LogEvent) : List String := "message" :: e.fields.map (·.1)

end VhdlFrontEnd
