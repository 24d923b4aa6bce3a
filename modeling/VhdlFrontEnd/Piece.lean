import VhdlFrontEnd.Lexeme.Read
import VhdlFrontEnd.Source.Comment

/-!
# The pieces of a line

A line of code is cut into pieces without gaps: runs of blanks, comments, and lexemes. Main
statement: the texts of the pieces, one after the other, are the line.
-/

namespace VhdlFrontEnd

/-- The sort of a piece. -/
inductive PieceSort
  | blanks
  /-- From `--` to the end of the line. -/
  | lineComment
  /-- From `/*` to the first closer. -/
  | blockComment
  /-- From a `/*` that no closer follows to the end of the line. -/
  | openComment
  | lexeme (lexeme : Lexeme)
deriving DecidableEq, Repr, Inhabited

/-- A part of a line. -/
structure Piece where
  sort : PieceSort
  text : List Char
deriving DecidableEq, Repr, Inhabited

namespace Piece

/-- The piece separates tokens and is none itself. -/
def isGap (p : Piece) : Bool :=
  match p.sort with
  | .lexeme _ => false
  | _ => true

def lexeme? (p : Piece) : Option Lexeme :=
  match p.sort with
  | .lexeme l => some l
  | _ => none

def kind? (p : Piece) : Option TokenKind := p.lexeme?.bind (·.kind?)

/-- The fault that is reported of the piece. -/
def fault? (p : Piece) : Option LexicalFault := p.lexeme?.bind (·.fault?)

/-- The comment at the front of a text, with what follows it. -/
def comment? : List Char → Option (Piece × List Char)
  | '-' :: '-' :: rest => some (⟨.lineComment, '-' :: '-' :: rest⟩, [])
  | '/' :: '*' :: rest =>
    match Source.splitCloser? rest with
    | some (inside, rest) => some (⟨.blockComment, '/' :: '*' :: inside ++ ['*', '/']⟩, rest)
    | none => some (⟨.openComment, '/' :: '*' :: rest⟩, [])
  | _ => none

/-- The first piece of a text that starts with `c`, with what follows it. -/
def first (previous? : Option TokenKind) (c : Char) (rest : List Char) : Piece × List Char :=
  if Text.isBlank c then
    (⟨.blanks, c :: rest.takeWhile Text.isBlank⟩, rest.dropWhile Text.isBlank)
  else
    match comment? (c :: rest) with
    | some found => found
    | none =>
      let reading := Lexeme.read previous? c rest
      (⟨.lexeme reading.lexeme, reading.text⟩, reading.rest)

/-- The kind of the last token after the piece. -/
def previousAfter (previous? : Option TokenKind) (p : Piece) : Option TokenKind :=
  p.kind?.or previous?

theorem comment?_append {cs rest : List Char} {p : Piece} (h : comment? cs = some (p, rest)) :
    p.text ++ rest = cs ∧ p.text ≠ [] := by
  unfold comment? at h
  split at h
  · cases h; simp
  · next body =>
    split at h
    · next hs =>
      cases h
      have := Source.splitMark?_eq_some hs
      simp [this]
    · cases h; simp
  · exact nomatch h

theorem first_append (previous? : Option TokenKind) (c : Char) (rest : List Char) :
    (first previous? c rest).1.text ++ (first previous? c rest).2 = c :: rest := by
  unfold first
  split
  · simp [List.takeWhile_append_dropWhile]
  · split
    · next h => exact (comment?_append h).1
    · exact Lexeme.read_append _ _ _

theorem first_ne_nil (previous? : Option TokenKind) (c : Char) (rest : List Char) :
    (first previous? c rest).1.text ≠ [] := by
  unfold first
  split
  · simp
  · split
    · next h => exact (comment?_append h).2
    · exact Lexeme.read_ne_nil _ _ _

theorem length_first_lt (previous? : Option TokenKind) (c : Char) (rest : List Char) :
    (first previous? c rest).2.length < (c :: rest).length := by
  have whole := congrArg List.length (first_append previous? c rest)
  have := List.length_pos_iff.mpr (first_ne_nil previous? c rest)
  rw [List.length_append] at whole
  omega

/-- The pieces of a text, given the kind of the token before it. -/
def pieces (previous? : Option TokenKind) : List Char → List Piece
  | [] => []
  | c :: rest =>
    let found := first previous? c rest
    found.1 :: pieces (previousAfter previous? found.1) found.2
termination_by cs => cs.length
decreasing_by exact length_first_lt previous? c rest

/-- No character is lost: the pieces make up the text. -/
theorem flatten_pieces (previous? : Option TokenKind) (cs : List Char) :
    ((pieces previous? cs).map (·.text)).flatten = cs := by
  fun_induction pieces previous? cs with
  | case1 => rfl
  | case2 previous? c rest found ih =>
    rw [List.map_cons, List.flatten_cons, ih]
    exact first_append _ _ _

theorem pieces_ne_nil (previous? : Option TokenKind) (cs : List Char) :
    ∀ p ∈ pieces previous? cs, p.text ≠ [] := by
  fun_induction pieces previous? cs with
  | case1 => simp
  | case2 previous? c rest found ih =>
    intro p hp
    rcases List.mem_cons.mp hp with rfl | hp
    · exact first_ne_nil _ _ _
    · exact ih p hp

end Piece

end VhdlFrontEnd
