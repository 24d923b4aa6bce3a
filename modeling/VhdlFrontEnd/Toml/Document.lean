import VhdlFrontEnd.Toml.Literal
import VhdlFrontEnd.Toml.Moment
import VhdlFrontEnd.Toml.Value

/-!
# Documents

A document is a list of statements: headers, which name the table that follows, and values under
keys. The statements are read first and then carried out one after the other.
-/

namespace VhdlFrontEnd.Toml

/-- Keys are shorter than this, and values are not nested as deeply. -/
def nestingLimit : Nat := 80

/-- A character of a name without quotes. -/
def isBare (c : Char) : Bool := c.isAlphanum || c == '-' || c == '_'

def name : Reader String := do
  let cs ← lineString .double <|> lineString .single <|> Reader.someOf isBare
  return String.ofList cs

/-- Names with dots between them, and with blanks wherever. -/
def key : Reader Key := do
  let names ← Reader.separated (spaces *> name <* spaces) (Reader.char '.')
  match names.getLast? with
  | some last => if names.length < nestingLimit then return ⟨names.dropLast, last⟩ else failure
  | none => failure

/-- A value that holds no other values. -/
def scalar : Reader Value :=
  (.string <$> string) <|> (moment *> pure .moment) <|> (real *> pure .real) <|>
    (specialReal *> pure .real) <|> (.integer <$> integer) <|>
    (Reader.word "true" *> pure (.boolean true)) <|>
    (Reader.word "false" *> pure (.boolean false))

/-- Values between brackets. A comma may follow the last one, and lines may end anywhere. -/
def array (item : Reader Value) : Reader Value := do
  Reader.char '['
  let items ← Reader.option
    (Reader.separated (gap *> item <* gap) (Reader.char ',') <*
      Reader.option (Reader.char ','))
  gap
  Reader.char ']'
  return .array (items.getD [])

def pair (item : Reader Value) : Reader (Key × Value) := do
  let k ← key
  Reader.char '='
  spaces
  return (k, ← item)

/-- The table of some pairs, if no name is used twice. -/
def tableOf? (pairs : List (Key × Value)) : Option Entries :=
  pairs.foldlM (fun es (k, v) => Entries.assign true v k.parents k.name es) []

/-- Pairs between braces, on one line. -/
def inlineTable (item : Reader Value) : Reader Value := do
  Reader.char '\x7b'
  let pairs ← Reader.option (Reader.separated (pair item <* spaces) (Reader.char ','))
  spaces
  Reader.char '\x7d'
  let entries ← liftM (tableOf? (pairs.getD []))
  return .table .inline entries

/-- A value in which brackets and braces are nested up to a depth. -/
def value : Nat → Reader Value
  | 0 => scalar
  | depth + 1 => array (value depth) <|> inlineTable (value depth) <|> scalar

/-- One line of a document, or several if its value goes over several. -/
inductive Statement
  /-- The pairs that follow belong to the table under the key. -/
  | table (k : Key)
  /-- The pairs that follow belong to one more table under the key. -/
  | item (k : Key)
  | pair (k : Key) (v : Value)
  | blank
deriving Inhabited

/-- A statement with the end of its line. -/
def statement : Reader Statement := do
  match ← Reader.next? with
  | none => failure
  | some '#' => comment *> lineEnd *> pure .blank
  | some '[' =>
    (do
      Reader.word "[["
      let k ← key
      Reader.word "]]"
      blankRest
      return .item k) <|> do
      Reader.char '['
      let k ← key
      Reader.char ']'
      blankRest
      return .table k
  | some _ =>
    (newline *> pure .blank) <|> do
      let (k, v) ← pair (value (nestingLimit - 1))
      blankRest
      return .pair k v

/-- The statements of a whole text. A byte-order mark may stand in front. -/
def statements : Reader (List Statement) := do
  discard (Reader.option (Reader.char '\ufeff'))
  let all ← Reader.many (spaces *> statement)
  spaces
  Reader.atEnd
  return all

/-- What the statements so far have made: the whole document, and the path of the table that
pairs belong to. -/
structure Document where
  entries : Entries := []
  current : List String := []
deriving Inhabited

namespace Document

/-- The document after one more statement, unless that defines something twice. -/
def perform (d : Document) : Statement → Option Document
  | .blank => some d
  | .table k => (Entries.openTable k d.entries).map (⟨·, k.path⟩)
  | .item k => (Entries.openItem k d.entries).map (⟨·, k.path⟩)
  | .pair k v =>
    (Entries.within (Entries.assign true v k.parents k.name) d.current d.entries).map
      (⟨·, d.current⟩)

/-- The document of a text, if the text is one. -/
def parse? (text : List Char) : Option Entries := do
  let (all, _) ← statements text
  let d ← all.foldlM perform {}
  return d.entries

end Document

end VhdlFrontEnd.Toml
