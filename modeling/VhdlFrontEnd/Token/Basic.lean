import VhdlFrontEnd.Position
import VhdlFrontEnd.Text.Column
import VhdlFrontEnd.Token.Kind

/-!
# Tokens

A token owns no text. It names the line it stands on and the bytes it takes there, and the
source gives the text back.
-/

namespace VhdlFrontEnd

/-- A run of bytes on one line. Lines are counted from zero here. -/
structure TextRange where
  line : Nat
  start : Nat
  length : Nat
deriving DecidableEq, Repr, Inhabited

/-- The offset just past the range. -/
def TextRange.stop (r : TextRange) : Nat := r.start + r.length

/-- A token: its kind, where it starts, and where its spelling is kept. -/
structure Token where
  kind : TokenKind
  position : Position
  range : TextRange
deriving DecidableEq, Repr, Inhabited

/-- A shift would take a token off its line. -/
structure ColumnUnderflow where
  column : Nat
  offset : Int
deriving DecidableEq, Repr

/-- The text of the fault. -/
def ColumnUnderflow.message (e : ColumnUnderflow) : String :=
  "shifting column " ++ toString e.column ++ " by " ++ toString e.offset ++ " leaves the line"

namespace Token

/-- The token takes no text. -/
def isEmpty (t : Token) : Bool := t.range.length == 0

/-- The token reported `offset` columns further on. Its spelling stays where it is. -/
def shifted (t : Token) (offset : Int) : Except ColumnUnderflow Token :=
  match t.position.shifted? offset with
  | some p => .ok { t with position := p }
  | none => .error ⟨t.position.column, offset⟩

/-- The token without the text `front` at its start, where `text` is its spelling. The rest must
not be empty. -/
def trimmed? (t : Token) (text front : List Char) : Option Token :=
  if front.length < text.length ∧ front.isPrefixOf text then
    let bytes := Text.byteLength front
    some { t with
      range := ⟨t.range.line, t.range.start + bytes, t.range.length - bytes⟩
      position := ⟨t.position.line, t.position.column + front.length⟩ }
  else none

/-- A shift changes neither the kind nor the spelling. -/
theorem shifted_eq_ok {t u : Token} {offset : Int} (h : t.shifted offset = .ok u) :
    u.kind = t.kind ∧ u.range = t.range := by
  unfold shifted at h
  split at h
  · cases h; exact ⟨rfl, rfl⟩
  · exact nomatch h

end Token

end VhdlFrontEnd
