import VhdlFrontEnd.Log.Event

/-!
# Log lines

An event is written on a line of its own: the time, the level, the message, and the fields. On a
styled line the time is dim, the level has its color, and the names of the fields are slanted.
-/

namespace VhdlFrontEnd.LogEvent

/-- A text in a terminal style, given by its number. -/
def styled (styleCode text : String) : String := "\x1b[" ++ styleCode ++ "m" ++ text ++ "\x1b[0m"

/-- A field after a blank. -/
def field (style : Bool) (name value : String) : String :=
  if style then " " ++ styled "3" name ++ styled "2" "=" ++ value
  else " " ++ name ++ "=" ++ value

/-- The line of an event that happened at `time`. -/
def render (style : Bool) (time : String) (e : LogEvent) : String :=
  (if style then styled "2" time ++ " " ++ styled e.level.colorCode e.level.label
    else time ++ " " ++ e.level.label) ++
    " " ++ e.message ++ String.join (e.fields.map fun (name, value) => field style name value) ++
    "\n"

end VhdlFrontEnd.LogEvent
