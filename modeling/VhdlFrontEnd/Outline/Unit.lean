import VhdlFrontEnd.Position
import VhdlFrontEnd.Text.Charset

/-!
# Design units

The outline of a file: the design units it declares, and the libraries and names it pulls in.
The bodies of units are not part of it.
-/

namespace VhdlFrontEnd

/-- The kind of a recognised header. -/
inductive UnitKind
  | library
  | use
  | contextReference
  | context
  | entity
  | architecture
  | package
  | packageBody
  | configuration
deriving DecidableEq, Repr, Inhabited

namespace UnitKind

def all : List UnitKind := [.library, .use, .contextReference, .context, .entity, .architecture,
  .package, .packageBody, .configuration]

/-- The name of the kind in lists of units. -/
def name : UnitKind → String
  | .library => "Library"
  | .use => "Use"
  | .contextReference => "ContextReference"
  | .context => "Context"
  | .entity => "Entity"
  | .architecture => "Architecture"
  | .package => "Package"
  | .packageBody => "PackageBody"
  | .configuration => "Configuration"

def ofName? (name : String) : Option UnitKind := all.find? fun k => k.name == name

/-- The reserved words that start the header. -/
def keyword : UnitKind → String
  | .library => "library"
  | .use => "use"
  | .contextReference | .context => "context"
  | .entity => "entity"
  | .architecture => "architecture"
  | .package => "package"
  | .packageBody => "package body"
  | .configuration => "configuration"

/-- The header only pulls in names for the units after it. -/
def isContextItem : UnitKind → Bool
  | .library | .use | .contextReference => true
  | _ => false

/-- The unit may be analysed on its own. -/
def isPrimary : UnitKind → Bool
  | .entity | .package | .configuration | .context => true
  | _ => false

end UnitKind

/-- One recognised header. -/
structure DesignUnit where
  kind : UnitKind
  /-- The name that is declared; context items declare none. -/
  name? : Option String := none
  /-- The entity to which an architecture or a configuration belongs. -/
  of? : Option String := none
  /-- The names that a context item pulls in. -/
  names : List String := []
  /-- Where the header starts. -/
  position : Position
deriving DecidableEq, Repr, Inhabited

/-- Position, reserved words and names on one line. -/
def DesignUnit.render (u : DesignUnit) : String :=
  u.position.render ++ ": " ++ u.kind.keyword ++ (u.name?.elim "" (" " ++ ·)) ++
    (u.of?.elim "" (" of " ++ ·)) ++
    (if u.names.isEmpty then "" else " " ++ ", ".intercalate u.names)

/-- The outline of a file: its units in source order and the number of its tokens. -/
structure Outline where
  units : List DesignUnit := []
  tokenCount : Nat := 0
deriving DecidableEq, Repr, Inhabited

namespace Outline

def unitsOf (o : Outline) (kind : UnitKind) : List DesignUnit := o.units.filter (·.kind == kind)

/-- The first unit of a kind with a name, in any case. -/
def find? (o : Outline) (kind : UnitKind) (name : String) : Option DesignUnit :=
  (o.unitsOf kind).find? fun u => u.name?.any fun n => Text.sameIgnoringCase n.toList name.toList

def isEmpty (o : Outline) : Bool := o.units.isEmpty

/-- The units, one on a line, and the number of tokens. -/
def render (o : Outline) : String :=
  String.join (o.units.map fun u => u.render ++ "\n") ++
    "(" ++ toString o.tokenCount ++ " tokens)"

end Outline

end VhdlFrontEnd
