/-!
# Bytes to characters

A file is read as UTF-8 if it is valid UTF-8, and else as Latin-1, in which every byte is the
character of its number; so every sequence of bytes is some text.
-/

namespace VhdlFrontEnd.Text

/-- The characters of the bytes, one for each. -/
def latin1 (bytes : ByteArray) : List Char := bytes.toList.map fun b => Char.ofNat b.toNat

/-- The text that the bytes stand for. -/
def decode (bytes : ByteArray) : List Char :=
  match String.fromUTF8? bytes with
  | some s => s.toList
  | none => latin1 bytes

/-- The lines of a text: it is cut at every newline, and a newline at the end starts no line. -/
def splitLines (cs : List Char) : List (List Char) :=
  let pieces := cs.splitOn '\n'
  if pieces.getLast? = some [] then pieces.dropLast else pieces

/-- A line without the one carriage return that may stand at its end. -/
def dropReturn (line : List Char) : List Char :=
  if line.getLast? = some '\r' then line.dropLast else line

/-- A text without the byte-order mark that may stand in front. -/
def dropMark : List Char → List Char
  | '\ufeff' :: rest => rest
  | cs => cs

/-- The physical lines of a source, without byte-order mark and line ends. -/
def physicalLines (cs : List Char) : List (List Char) := (splitLines (dropMark cs)).map dropReturn

theorem dropMark_of_head? {cs : List Char} (no_mark : cs.head? ≠ some '\ufeff') : dropMark cs = cs := by
  unfold dropMark
  split
  · exact absurd rfl no_mark
  · rfl

end VhdlFrontEnd.Text
