/-!
# Readers

A reader takes a value off the front of a text, or fails. A reader that fails takes nothing, so
another can be tried in its place.
-/

namespace VhdlFrontEnd.Toml

/-- From a text to a value and the text after it. -/
abbrev Reader : Type → Type := StateT (List Char) Option

namespace Reader

variable {α : Type}

/-- A character of the class `p`. -/
def one (p : Char → Bool) : Reader Char := fun cs =>
  match cs with
  | c :: rest => if p c then some (c, rest) else none
  | [] => none

def char (c : Char) : Reader Unit := discard (one (· == c))

def word (s : String) : Reader Unit := fun cs =>
  if s.toList.isPrefixOf cs then some ((), cs.drop s.toList.length) else none

/-- All characters of the class `p` at the front. -/
def run (p : Char → Bool) : Reader (List Char) := fun cs =>
  some (cs.takeWhile p, cs.dropWhile p)

/-- One or more characters of the class `p`. -/
def someOf (p : Char → Bool) : Reader (List Char) := do
  let cs ← run p
  if cs.isEmpty then failure else return cs

/-- The next character, which is left where it is. -/
def next? : Reader (Option Char) := fun cs => some (cs.head?, cs)

def atEnd : Reader Unit := fun cs => if cs.isEmpty then some ((), cs) else none

def option (r : Reader α) : Reader (Option α) := some <$> r <|> pure none

/-- The text goes on with a value, which is left where it is. -/
def ahead (r : Reader α) : Reader Unit := fun cs => (r cs).map fun _ => ((), cs)

/-- The values at the front of a text, one after the other, and what follows. A value that takes
no text is the last. -/
def repeated (r : Reader α) (cs : List Char) : List α × List Char :=
  match r cs with
  | none => ([], cs)
  | some (a, rest) =>
    if rest.length < cs.length then
      let (as, last) := repeated r rest
      (a :: as, last)
    else ([a], rest)
termination_by cs.length

def many (r : Reader α) : Reader (List α) := fun cs => some (repeated r cs)

/-- One or more values with a mark between each two. -/
def separated (r : Reader α) (mark : Reader Unit) : Reader (List α) := do
  let first ← r
  let rest ← many (mark *> r)
  return first :: rest

end Reader

/-! ## Blanks, comments and line ends -/

/-- The blanks inside a line. -/
def isSpace (c : Char) : Bool := c == ' ' || c == '\t'

/-- Comments and literals hold every character but the control characters of one byte; a tab is
allowed. -/
def isPlain (c : Char) : Bool := c == '\t' || (0x20 ≤ c.toNat && c.toNat ≠ 0x7f)

/-- Blanks, or nothing. -/
def spaces : Reader Unit := discard (Reader.run isSpace)

/-- The end of a line that is not the last. -/
def newline : Reader Unit := Reader.char '\n' <|> Reader.word "\r\n"

/-- From a `#` to the end of the line. -/
def comment : Reader Unit := Reader.char '#' *> discard (Reader.run isPlain)

/-- The end of a line. -/
def lineEnd : Reader Unit := newline <|> Reader.atEnd

/-- Nothing but blanks and a comment up to the end of the line. -/
def blankRest : Reader Unit := spaces *> discard (Reader.option comment) *> lineEnd

/-- Blanks, comments and line ends, or nothing. -/
def gap : Reader Unit :=
  discard (Reader.many (discard (Reader.someOf isSpace) <|> newline <|> (comment *> newline)))

end VhdlFrontEnd.Toml
