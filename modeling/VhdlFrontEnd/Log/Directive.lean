import VhdlFrontEnd.Log.Event
import VhdlFrontEnd.Log.Value
import VhdlFrontEnd.Text.Column

/-!
# Log directives

A directive says up to which level events are written, and whose. It is a level, or a target with or
without a level after an equals sign. Between brackets after the target it may be narrowed to the
events inside a span or to those with a field.
-/

namespace VhdlFrontEnd

/-- Which events of a component a directive is about. -/
inductive Scope
  | all
  | withField (name : String)
  /-- Events inside a span of some kind. The front end opens no spans, so these are none. -/
  | inSpan
deriving DecidableEq, Repr, Inhabited

/-- A part of a filter: up to which rank events are allowed, and which events. Without a target the
directive is about all components. -/
structure Directive where
  target? : Option String
  scope : Scope := .all
  rank : Nat
deriving DecidableEq, Repr, Inhabited

namespace Directive

/-- The directive is about the event. -/
def concerns (d : Directive) (e : LogEvent) : Bool :=
  d.target?.all (fun target => target.toList.isPrefixOf e.component.path.toList) &&
    match d.scope with
    | .all => true
    | .withField name => e.fieldNames.contains name
    | .inSpan => false

/-- The field that events must have, if there is one. -/
def fieldName (d : Directive) : String :=
  match d.scope with
  | .withField name => name
  | _ => ""

/-- A longer target is more specific, and any target is more specific than none. With the same
target, a directive about a field is more specific than one about all events. -/
def specificity (d : Directive) : Nat :=
  2 * d.target?.elim 0 (·.utf8ByteSize + 1) + if d.scope matches .withField _ then 1 else 0

/-- Of two directives about an event, the first decides and not the second: it is more specific, or
as specific and about the field with the later name. -/
def outranks (d other : Directive) : Bool :=
  other.specificity < d.specificity ||
    (other.specificity = d.specificity && other.fieldName < d.fieldName)

/-! ## Reading -/

/-- The value of decimal digits with or without a plus sign. -/
def decimal? (cs : List Char) : Option Nat :=
  let digits := if cs.head? = some '+' then cs.tail else cs
  if digits.isEmpty || digits.any (!·.isDigit) then none
  else some (digits.foldl (fun n c => 10 * n + (c.toNat - '0'.toNat)) 0)

/-- The rank that a word stands for: a level's name or number, or `off`. -/
def rank? (cs : List Char) : Option Nat :=
  match decimal? cs with
  | some n => if n ≤ LogLevel.trace.rank then some n else none
  | none =>
    let word := String.ofList (cs.map Char.toLower)
    if word = "off" then some 0 else (LogLevel.all.find? (·.name == word)).map (·.rank)

/-- The rank that stands after an equals sign. Nothing stands for everything. -/
def rankAfter? (level : List Char) : Option Nat :=
  if level.isEmpty then some LogLevel.trace.rank else rank? level

/-- A field between braces: a name, or a name with a value. Values are only compared in spans. -/
def fieldScope? (cs : List Char) : Option Scope :=
  match cs.dropWhile (· ≠ '=') with
  | [] => some (.withField (String.ofList cs))
  | _ :: after => if FilterValue.isValue (after.takeWhile (· ≠ '=')) then some .inSpan else none

/-- A directive starts with a letter, a number, one of three marks or an opening bracket. -/
def startsDirective (c : Char) : Bool :=
  Text.isAlphanumeric c || c == '-' || c == ':' || c == '_' || c == '['

/-- Where the parts of a directive stand, in bytes from its start. -/
structure Layout where
  /-- The length of what stands in front, a level or a target. -/
  head : Nat
  /-- Brackets stand after the head, with the name of a span or a field in them. -/
  bracketed : Bool := false
  /-- Something stands between the opening bracket and the field. -/
  spanned : Bool := false
  /-- The start and the length of the field. -/
  field? : Option (Nat × Nat) := none
  /-- Where the level starts, after an equals sign. -/
  level? : Option Nat := none
deriving DecidableEq, Repr, Inhabited

/-- The layout with the level, if there is one, after the first `start` bytes. -/
def Layout.withLevel? (l : Layout) (start : Nat) : List Char → Option Layout
  | [] => some l
  | '=' :: _ => some { l with level? := some (start + 1) }
  | _ => none

/-- The layout with what stands between brackets, after the opening one: the name of a span, a field
between braces, or both. -/
def Layout.withBrackets? (l : Layout) (cs : List Char) : Option Layout :=
  let ends (c : Char) : Bool := c = ']' || c = '\x7b'
  let start := l.head + 1
  let name := Text.byteLength (cs.takeWhile (!ends ·))
  match cs.dropWhile (!ends ·) with
  | [] => none
  | ']' :: rest =>
    ({ l with bracketed := true, spanned := true } : Layout).withLevel? (start + name + 1) rest
  | _ :: rest =>
    let length := Text.byteLength (rest.takeWhile (· ≠ '\x7d'))
    let field := start + name + 1
    match rest.dropWhile (· ≠ '\x7d') with
    | _ :: ']' :: rest =>
      if length = 0 then none
      else
        ({ l with bracketed := true, spanned := 0 < name, field? := some (field, length) } :
          Layout).withLevel? (field + length + 2) rest
    | _ => none

def Layout.ofChars? (cs : List Char) : Option Layout :=
  let ends (c : Char) : Bool := c = '=' || c = '['
  let l : Layout := { head := Text.byteLength (cs.takeWhile (!ends ·)) }
  if !cs.head?.any startsDirective then none
  else
    match cs.dropWhile (!ends ·) with
    | '[' :: rest => l.withBrackets? rest
    | rest => l.withLevel? l.head rest

/-- The directive in a text with the given layout. A text without brackets and equals sign is a
level if it can be one, and else a target; a target without a level allows everything. -/
def Layout.directive? (l : Layout) (cs : List Char) : Option Directive := do
  if !l.bracketed && l.level?.isNone then
    match rank? cs with
    | some rank => some { target? := none, rank }
    | none => some { target? := some (String.ofList cs), rank := LogLevel.trace.rank }
  else
    let target ← Text.slice? cs 0 l.head
    let scope ← match l.field? with
      | none => some Scope.all
      | some (start, length) => (Text.slice? cs start length).bind fieldScope?
    let rank ← match l.level? with
      | none => some LogLevel.trace.rank
      | some start => (Text.cut? cs start).bind fun (_, level) => rankAfter? level
    some {
      target? := if target.isEmpty then none else some (String.ofList target)
      scope := if l.spanned then .inSpan else scope
      rank }

def trimmed (cs : List Char) : List Char :=
  ((cs.dropWhile Text.isSpace).reverse.dropWhile Text.isSpace).reverse

/-- The directive that a text stands for. White space around it does not count for the layout, but
the parts are cut out of the text as it is. -/
def ofChars? (cs : List Char) : Option Directive := do
  (← Layout.ofChars? (trimmed cs)).directive? cs

end Directive

end VhdlFrontEnd
