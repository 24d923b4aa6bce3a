import VhdlFrontEnd.Text.Charset
import VhdlFrontEnd.Toml.Reader

/-!
# Strings

A string stands between double quotes, with escapes, or between single quotes, as it is. Three
quotes at either end let it go over several lines.
-/

namespace VhdlFrontEnd.Toml

/-- The quote that opens and closes a string. -/
inductive Quote
  /-- Escapes count. -/
  | double
  /-- Every character stands for itself. -/
  | single
deriving DecidableEq, Repr, Inhabited

def Quote.char : Quote → Char
  | double => '"'
  | single => '\''

/-- The class of characters that stand for themselves between the quotes. -/
def Quote.holds (q : Quote) (c : Char) : Bool :=
  isPlain c && c != q.char && !(q == .double && c == '\\')

/-- `n` digits in base sixteen. -/
def hexDigits : Nat → Reader (List Char)
  | 0 => return []
  | n + 1 => do
    let first ← Reader.one (Text.isDigitIn 16)
    return first :: (← hexDigits n)

/-- The character with a number of `n` digits; not every number has one. -/
def codePoint (n : Nat) : Reader Char := do
  let value := (← hexDigits n).foldl (fun n c => 16 * n + (Text.digitValue? c).getD 0) 0
  if value.isValidChar then return Char.ofNat value else failure

def escape : Reader Char := do
  Reader.char '\\'
  match ← Reader.one fun _ => true with
  | 'b' => return '\x08'
  | 't' => return '\t'
  | 'n' => return '\n'
  | 'f' => return '\x0c'
  | 'r' => return '\r'
  | '"' => return '"'
  | '\\' => return '\\'
  | 'u' => codePoint 4
  | 'U' => codePoint 8
  | _ => failure

/-- A backslash before the end of a line leaves out all blanks and line ends that follow. -/
def joinedLines : Reader Unit := do
  Reader.char '\\'
  spaces
  newline
  discard (Reader.many (discard (Reader.someOf isSpace) <|> newline))

/-- Some text of a string on one line. -/
def lineText (q : Quote) : Reader (List Char) :=
  Reader.someOf q.holds <|> if q = .double then ([·]) <$> escape else failure

/-- A string on one line. -/
def lineString (q : Quote) : Reader (List Char) := do
  Reader.char q.char
  let pieces ← Reader.many (lineText q)
  Reader.char q.char
  return pieces.flatten

/-- Some text of a string over several lines, which is no quote. -/
def blockText (q : Quote) : Reader (List Char) :=
  (if q = .double then joinedLines *> pure [] else failure) <|> lineText q <|>
    (newline *> pure ['\n'])

/-- One or two quotes before what `after` reads. -/
def quotesBefore (q : Quote) (after : Reader Unit) : Reader (List Char) :=
  (Reader.char q.char *> Reader.char q.char *> Reader.ahead after *> pure [q.char, q.char]) <|>
    (Reader.char q.char *> Reader.ahead after *> pure [q.char])

/-- The three quotes at either end of a string over several lines. -/
def blockMark (q : Quote) : Reader Unit :=
  Reader.char q.char *> Reader.char q.char *> Reader.char q.char

/-- A string over several lines. A line end right after the opening quotes does not count, and one
or two quotes may stand right before the closing ones. -/
def blockString (q : Quote) : Reader (List Char) := do
  blockMark q
  discard (Reader.option newline)
  let pieces ← Reader.many
    (blockText q <|> quotesBefore q (discard (blockText q)))
  let quotes ← quotesBefore q (blockMark q) <|> pure []
  blockMark q
  return pieces.flatten ++ quotes

/-- A string of any form. -/
def string : Reader (List Char) :=
  blockString .double <|> lineString .double <|> blockString .single <|> lineString .single

end VhdlFrontEnd.Toml
