import VhdlFrontEnd.Outline.Unit
import VhdlFrontEnd.Token.Basic

/-!
# Headers

A header is the part of a statement that the outline records. Reading one either consumes its
tokens or stops at the first token that does not fit, with what was expected there. What is left
either way is a suffix of the tokens, so the next statement starts further on.
-/

namespace VhdlFrontEnd.Outline

/-- What a header needs next. -/
inductive Expected
  | token (kind : TokenKind)
  | identifier
  | suffix
deriving DecidableEq, Repr, Inhabited

/-- The expectation in the words of a message. -/
def Expected.render : Expected → String
  | token kind => kind.render
  | identifier => "identifier"
  | suffix => "a suffix after `.`"

/-- A header stops before the tokens `rest`, because something else was expected. -/
structure Deviation where
  expected : Expected
  rest : List Token
deriving Repr, Inhabited

/-- A part of a header: from the tokens that are left to a value and the tokens after it. -/
abbrev Part (α : Type) : Type := List Token → Except Deviation (α × List Token)

namespace Part

/-- The first part and then the second, which may depend on its value. -/
def andThen {α β : Type} (first : Part α) (second : α → Part β) : Part β := fun tokens =>
  match first tokens with
  | .ok (a, rest) => second a rest
  | .error e => .error e

/-- The part with its value changed. -/
def map {α β : Type} (f : α → β) (part : Part α) : Part β := fun tokens =>
  match part tokens with
  | .ok (a, rest) => .ok (f a, rest)
  | .error e => .error e

end Part

variable (spelling : Token → String)

def token (kind : TokenKind) : Part Unit
  | [] => .error ⟨.token kind, []⟩
  | t :: rest => if t.kind = kind then .ok ((), rest) else .error ⟨.token kind, t :: rest⟩

/-- An identifier; its value is its spelling. -/
def identifier : Part String
  | [] => .error ⟨.identifier, []⟩
  | t :: rest =>
    if t.kind = .identifier then .ok (spelling t, rest) else .error ⟨.identifier, t :: rest⟩

/-- The kinds that may follow a point in a name. -/
def isSuffix : TokenKind → Bool
  | .identifier | .keyword .all | .character | .string => true
  | _ => false

/-- What may follow `name` in a list of names: a point and a suffix, if the names are selected
names, or a comma and the next name. The list ends at any other token. -/
def namesFrom (selected : Bool) (name : String) : Part (List String)
  | [] => .ok ([name], [])
  | mark :: rest =>
    if selected ∧ mark.kind = .symbol .dot then
      match rest with
      | [] => .error ⟨.suffix, []⟩
      | t :: rest =>
        if isSuffix t.kind then namesFrom selected (name ++ "." ++ spelling t) rest
        else .error ⟨.suffix, t :: rest⟩
    else if mark.kind = .symbol .comma then
      match rest with
      | [] => .error ⟨.identifier, []⟩
      | t :: rest =>
        if t.kind = .identifier then
          match namesFrom selected (spelling t) rest with
          | .ok (names, rest) => .ok (name :: names, rest)
          | .error e => .error e
        else .error ⟨.identifier, t :: rest⟩
    else .ok ([name], mark :: rest)

/-- One or more names with commas between them. -/
def nameList (selected : Bool) : Part (List String) :=
  (identifier spelling).andThen (namesFrom spelling selected)

/-- The list of names and the semicolon of a context item. -/
def contextItem (kind : UnitKind) (selected : Bool) (position : Position) : Part DesignUnit :=
  (nameList spelling selected).andThen fun names =>
    (token (.symbol .semicolon)).map fun _ => { kind, names, position }

/-- The name and the word `is` of a unit that stands on its own. -/
def named (kind : UnitKind) (position : Position) : Part DesignUnit :=
  (identifier spelling).andThen fun name =>
    (token (.keyword .is)).map fun _ => { kind, name? := some name, position }

/-- The name, the entity and the word `is` of a unit that belongs to an entity. -/
def secondary (kind : UnitKind) (position : Position) : Part DesignUnit :=
  (identifier spelling).andThen fun name =>
    (token (.keyword .of)).andThen fun _ =>
      (identifier spelling).andThen fun of =>
        (token (.keyword .is)).map fun _ => { kind, name? := some name, of? := some of, position }

/-- After `context`: a declaration if a name and `is` follow, and else a reference. -/
def context (position : Position) : Part DesignUnit := fun tokens =>
  match tokens with
  | name :: is :: rest =>
    if name.kind = .identifier ∧ is.kind = .keyword .is then
      .ok ({ kind := .context, name? := some (spelling name), position }, rest)
    else contextItem spelling .contextReference true position (name :: is :: rest)
  | tokens => contextItem spelling .contextReference true position tokens

/-- After `package`: the word `body` makes it a package body. -/
def package (position : Position) : Part DesignUnit := fun tokens =>
  match tokens with
  | body :: rest =>
    if body.kind = .keyword .body then named spelling .packageBody position rest
    else named spelling .package position (body :: rest)
  | [] => named spelling .package position []

/-- The header that a reserved word starts. -/
def header? (kind : TokenKind) (position : Position) : Option (Part DesignUnit) :=
  match kind with
  | .keyword .library => some (contextItem spelling .library false position)
  | .keyword .use => some (contextItem spelling .use true position)
  | .keyword .context => some (context spelling position)
  | .keyword .entity => some (named spelling .entity position)
  | .keyword .architecture => some (secondary spelling .architecture position)
  | .keyword .configuration => some (secondary spelling .configuration position)
  | .keyword .package => some (package spelling position)
  | _ => none

end VhdlFrontEnd.Outline
