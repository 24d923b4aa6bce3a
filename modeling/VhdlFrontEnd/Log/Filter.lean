import VhdlFrontEnd.Log.Directive

/-!
# Log filters

A filter is a list of directives. Of the directives about an event the most specific one decides,
and of equally specific ones the last. An event that no directive is about is not written. Main
statement: a filter that is a level alone allows the events up to that level.
-/

namespace VhdlFrontEnd

/-- Directives, in the order in which they were given. -/
structure LogFilter where
  directives : List Directive
deriving DecidableEq, Repr, Inhabited

/-- A filter that cannot be read. -/
structure MalformedFilter where
  directive : String
deriving DecidableEq, Repr

namespace LogFilter

/-- Of two directives the one that outranks the other; if neither does, the second. -/
def prefer (best? : Option Directive) (d : Directive) : Option Directive :=
  match best? with
  | none => some d
  | some best => if best.outranks d then some best else some d

/-- The directive that decides about an event. -/
def decisive? (f : LogFilter) (e : LogEvent) : Option Directive :=
  (f.directives.filter (·.concerns e)).foldl prefer none

/-- The event is written. -/
def allows (f : LogFilter) (e : LogEvent) : Bool := (f.decisive? e).any (e.level.rank ≤ ·.rank)

/-- The filter that allows events up to a level, whoever they come from. -/
def upTo (level : LogLevel) : LogFilter := ⟨[{ target? := none, rank := level.rank }]⟩

/-- The filter that a text stands for: directives between commas. A filter without directives
allows errors. -/
def parse (text : String) : Except MalformedFilter LogFilter := do
  let pieces := (text.toList.splitOn ',').filter (!·.isEmpty)
  let directives ← pieces.mapM fun piece =>
    match Directive.ofChars? piece with
    | some d => .ok d
    | none => .error ⟨String.ofList piece⟩
  return if directives.isEmpty then upTo .error else ⟨directives⟩

theorem allows_upTo (level : LogLevel) (e : LogEvent) :
    (upTo level).allows e ↔ e.level.rank ≤ level.rank := by
  simp [allows, decisive?, upTo, Directive.concerns, prefer]

end LogFilter

end VhdlFrontEnd
