import VhdlFrontEnd.Text.Column

/-!
# A cursor along one line

A cursor walks a line character by character and keeps the column it has reached. It never
crosses a line break, so the column is all that it has to count.
-/

namespace VhdlFrontEnd.Text

/-- A place on a line: what has been passed, the nearest character first, and what is left. -/
structure Cursor where
  passed : List Char
  rest : List Char
  column : Nat
  tabWidth : Nat

namespace Cursor

/-- The start of a line. A tab is at least one column wide. -/
def start (tabWidth : Nat) (line : List Char) : Cursor :=
  ⟨[], line, 1, max tabWidth 1⟩

def text (c : Cursor) : List Char := c.passed.reverse ++ c.rest

/-- The byte offset of the next character. -/
def offset (c : Cursor) : Nat := byteLength c.passed

def atEnd (c : Cursor) : Bool := c.rest.isEmpty

/-- The character `n` places ahead, if the line is that long. -/
def peek? (c : Cursor) (n : Nat) : Option Char := c.rest[n]?

/-- One character on; at the end the cursor stays. -/
def advance (c : Cursor) : Cursor :=
  match c.rest with
  | [] => c
  | x :: xs =>
    { c with passed := x :: c.passed, rest := xs, column := c.column + charWidth c.tabWidth x }

/-- `n` characters on, or up to the end. -/
def advanceBy (c : Cursor) : Nat → Cursor
  | 0 => c
  | n + 1 => c.advance.advanceBy n

/-- Past the next character if it is `x`. -/
def pass? (c : Cursor) (x : Char) : Option Cursor :=
  if c.rest.head? = some x then some c.advance else none

/-- Past `word` if the rest of the line starts with it. -/
def passWord? (c : Cursor) (word : List Char) : Option Cursor :=
  if word.isPrefixOf c.rest then some (c.advanceBy word.length) else none

/-- Past the characters of the class `p`. -/
def advanceWhile (c : Cursor) (p : Char → Bool) : Cursor :=
  c.advanceBy (c.rest.takeWhile p).length

def toEnd (c : Cursor) : Cursor := c.advanceBy c.rest.length

/-- The text from byte offset `start` up to the cursor; empty if that is no piece of the line. -/
def textFrom (c : Cursor) (start : Nat) : List Char :=
  if start ≤ c.offset then (slice? c.text start (c.offset - start)).getD [] else []

@[simp] theorem text_advance (c : Cursor) : c.advance.text = c.text := by
  unfold advance; split
  · rfl
  · next x xs h => simp [text, h]

@[simp] theorem text_advanceBy (c : Cursor) (n : Nat) : (c.advanceBy n).text = c.text := by
  induction n generalizing c with
  | zero => rfl
  | succ n ih => rw [advanceBy, ih, text_advance]

@[simp] theorem tabWidth_advance (c : Cursor) : c.advance.tabWidth = c.tabWidth := by
  unfold advance; split <;> rfl

end Cursor

end VhdlFrontEnd.Text
