import VhdlFrontEnd.Token.Symbol
import VhdlFrontEnd.Token.Keyword

/-!
# Token kinds

The lexical category of a token: a class whose members differ in spelling, a symbol, or a
reserved word.
-/

namespace VhdlFrontEnd

/-- The lexical category of a token. -/
inductive TokenKind
  | invalid
  | eof
  | newline
  | lineComment
  | blockCommentText
  | identifier
  | integer
  | real
  | character
  | string
  | bitString
  /-- An integer with a letter right after it, such as a size or a unit; it holds the digits. -/
  | integerLetter
  | symbol (s : Symbol)
  | keyword (k : Keyword)
deriving DecidableEq, Repr, Inhabited

namespace TokenKind

/-- The kinds whose members differ in spelling. -/
def classes : List TokenKind := [invalid, eof, newline, lineComment, blockCommentText, identifier,
  integer, real, character, string, bitString, integerLetter]

/-- All kinds: the classes, the symbols, the reserved words. -/
def all : List TokenKind := classes ++ Symbol.all.map symbol ++ Keyword.words.map keyword

/-- The one spelling of a symbol or of a reserved word. -/
def spelling? : TokenKind → Option String
  | symbol s => some s.spelling
  | keyword k => some k.spelling
  | _ => none

/-- The spelling if there is one, else a short description. -/
def description : TokenKind → String
  | invalid => "invalid token"
  | eof => "end of file"
  | newline => "newline"
  | lineComment => "line comment"
  | blockCommentText => "block comment text"
  | identifier => "identifier"
  | integer => "integer literal"
  | real => "real literal"
  | character => "character literal"
  | string => "string literal"
  | bitString => "bit-string literal"
  | integerLetter => "integer followed by a letter"
  | symbol s => s.spelling
  | keyword k => k.spelling

/-- The kind as a message shows it, with its spelling between backquotes. -/
def render (k : TokenKind) : String :=
  match k.spelling? with
  | some s => "`" ++ s ++ "`"
  | none => k.description

def name : TokenKind → String
  | invalid => "Invalid"
  | eof => "Eof"
  | newline => "Newline"
  | lineComment => "LineComment"
  | blockCommentText => "BlockCommentText"
  | identifier => "Identifier"
  | integer => "Integer"
  | real => "Real"
  | character => "Character"
  | string => "String"
  | bitString => "BitString"
  | integerLetter => "IntegerLetter"
  | symbol s => s.name
  | keyword k => k.name

def ofName? (name : String) : Option TokenKind := all.find? fun k => k.name == name

def isKeyword : TokenKind → Bool
  | keyword _ => true
  | _ => false

def isSymbol : TokenKind → Bool
  | symbol _ => true
  | _ => false

def isLiteral : TokenKind → Bool
  | integer | real | character | string | bitString | integerLetter => true
  | _ => false

/-- The kind is an operator that is spelled as a word. -/
def isWordOperator : TokenKind → Bool
  | keyword k => k.isOperator
  | _ => false

/-- The closer of a parenthesis or a bracket; every other kind has none. -/
def closer : TokenKind → TokenKind
  | symbol s => s.closer?.elim invalid symbol
  | _ => invalid

/-- After a kind that ends a name, an apostrophe is a tick and never opens a character literal. -/
def endsName : TokenKind → Bool
  | identifier | symbol .rightParen | symbol .rightBracket | keyword .all => true
  | _ => false

theorem mem_all (k : TokenKind) : k ∈ all := by
  unfold all
  cases k
  case symbol s =>
    exact List.mem_append_left _ (List.mem_append_right _ (List.mem_map_of_mem (Symbol.mem_all s)))
  case keyword k => exact List.mem_append_right _ (List.mem_map_of_mem (Keyword.mem_words k))
  all_goals exact List.mem_append_left _ (List.mem_append_left _ (by decide))

end TokenKind

end VhdlFrontEnd
