import VhdlFrontEnd.Diagnostic.Basic
import VhdlFrontEnd.Text.Escape
import VhdlFrontEnd.Text.Identifier
import VhdlFrontEnd.Token.Kind

/-!
# Lexemes

Where a token should start, a piece of text is read: it is a token, or a token with a fault that
is reported and kept, or a faulty text that is reported and dropped.
-/

namespace VhdlFrontEnd

/-- What is wrong with a lexeme. -/
inductive LexicalFault
  | unknownCharacter (c : Char)
  | unterminatedString
  | malformedNumber
  | negativeExponent
  | missingBaseMark
  | baseOutOfRange
  | invalidIdentifier (problem : Text.IdentifierProblem)
  | unterminatedBitString
  | bitStringCharacter (c : Char)
  | unterminatedExtended
  | emptyExtended
deriving DecidableEq, Repr, Inhabited

namespace LexicalFault

/-- The code under which the fault is filed. -/
def code : LexicalFault → Code
  | unknownCharacter _ => .unknownCharacter
  | unterminatedString => .unterminatedString
  | malformedNumber | negativeExponent | missingBaseMark | baseOutOfRange => .invalidNumber
  | invalidIdentifier _ => .invalidIdentifier
  | unterminatedBitString | bitStringCharacter _ => .invalidBitString
  | unterminatedExtended | emptyExtended => .invalidLiteral

/-- What the fault in `text` is. -/
def message (text : List Char) : LexicalFault → String
  | unknownCharacter c => "unknown character `" ++ String.ofList (Text.escape c) ++ "`"
  | unterminatedString => "unterminated string literal"
  | malformedNumber => "malformed number `" ++ String.ofList text ++ "`"
  | negativeExponent => "integer literal cannot have a negative exponent"
  | missingBaseMark => "based literal is missing its closing `#`"
  | baseOutOfRange => "base of `" ++ String.ofList text ++ "` must be between 2 and 16"
  | invalidIdentifier _ => "invalid identifier `" ++ String.ofList text ++ "`"
  | unterminatedBitString => "unterminated bit-string literal"
  | bitStringCharacter c =>
    "invalid character `" ++ String.ofList (Text.escape c) ++ "` in bit-string literal"
  | unterminatedExtended => "unterminated extended identifier"
  | emptyExtended => "extended identifier is empty"

/-- How to mend the fault, where there is something to say about it. -/
def helps : LexicalFault → List String
  | unterminatedString => ["string literals cannot span lines; use `&` to concatenate"]
  | missingBaseMark => ["based literals look like `16#FF#`"]
  | invalidIdentifier problem => [problem.message]
  | _ => []

end LexicalFault

/-- What a lexeme is. -/
inductive Lexeme
  | token (kind : TokenKind)
  /-- A token with a fault that is reported. -/
  | faulty (kind : TokenKind) (fault : LexicalFault)
  /-- A text that makes no token; its fault is reported. -/
  | dropped (fault : LexicalFault)
deriving DecidableEq, Repr, Inhabited

namespace Lexeme

/-- The kind of the token that the lexeme makes. -/
def kind? : Lexeme → Option TokenKind
  | token kind | faulty kind _ => some kind
  | dropped _ => none

def fault? : Lexeme → Option LexicalFault
  | token _ => none
  | faulty _ fault | dropped fault => some fault

end Lexeme

/-- A lexeme at the front of a text: what it is, its characters, and what follows them. -/
structure Reading where
  lexeme : Lexeme
  text : List Char
  rest : List Char
deriving DecidableEq, Repr, Inhabited

/-- The reading takes `cs` apart into the text of a lexeme, which is not empty, and the rest. -/
structure Reading.Splits (r : Reading) (cs : List Char) : Prop where
  append : r.text ++ r.rest = cs
  nonempty : r.text ≠ []

theorem Reading.Splits.length_lt {r : Reading} {cs : List Char} (h : r.Splits cs) :
    r.rest.length < cs.length := by
  rw [← h.append, List.length_append]
  have := List.length_pos_iff.mpr h.nonempty
  omega

end VhdlFrontEnd
