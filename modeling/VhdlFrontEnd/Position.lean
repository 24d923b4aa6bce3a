/-!
# Positions and spans

A position is a line and a column, both counted from one; a span is a run of columns on one
line, which is all that an underline needs. Main statement: positions are ordered by line and
then by column.
-/

namespace VhdlFrontEnd

/-- Counts of lines and columns, and the indices of lines, are words of 32 bits. -/
def wordMax : Nat := 4294967295

/-- A line and a column, both from one. -/
structure Position where
  line : Nat
  column : Nat
deriving DecidableEq, Repr, Inhabited

namespace Position

def start : Position := ⟨1, 1⟩

/-- The position `offset` columns further on its line, if that is a column. -/
def shifted? (p : Position) (offset : Int) : Option Position :=
  let column := (p.column : Int) + offset
  if 1 ≤ column ∧ column ≤ wordMax then some ⟨p.line, column.toNat⟩ else none

def nextLine (p : Position) : Position := ⟨p.line + 1, 1⟩

/-- By line, and on one line by column. -/
def compare (p q : Position) : Ordering :=
  (Ord.compare p.line q.line).then (Ord.compare p.column q.column)

/-- The first position stands no later than the second. -/
def le (p q : Position) : Bool := p.line < q.line || (p.line == q.line && p.column ≤ q.column)

/-- Line and column in parentheses. -/
def render (p : Position) : String :=
  "(" ++ toString p.line ++ "," ++ toString p.column ++ ")"

theorem le_iff {p q : Position} :
    p.le q ↔ p.line < q.line ∨ p.line = q.line ∧ p.column ≤ q.column := by
  simp [le]

theorem le_refl (p : Position) : p.le p := by simp [le]

theorem le_trans {p q r : Position} (hpq : p.le q) (hqr : q.le r) : p.le r := by
  rw [le_iff] at *; omega

theorem le_total (p q : Position) : (p.le q || q.le p) = true := by
  rw [Bool.or_eq_true, le_iff, le_iff]; omega

theorem le_antisymm {p q : Position} (hpq : p.le q) (hqp : q.le p) : p = q := by
  rw [le_iff] at *
  cases p; cases q; simp only [mk.injEq] at *; omega

end Position

/-- `length` columns from a position on. -/
structure Span where
  start : Position
  length : Nat
deriving DecidableEq, Repr, Inhabited

namespace Span

/-- The span of a report that belongs to no place in the source. It lies before every real
position. -/
def nowhere : Span := ⟨⟨0, 0⟩, 0⟩

/-- A position with no width. -/
def point (p : Position) : Span := ⟨p, 0⟩

/-- The column just past the span. -/
def endColumn (s : Span) : Nat := s.start.column + s.length

def isEmpty (s : Span) : Bool := s.length == 0

/-- Line and column of the start, with a colon between them. -/
def render (s : Span) : String := toString s.start.line ++ ":" ++ toString s.start.column

end Span

end VhdlFrontEnd
