import VhdlFrontEnd.Text.Charset
import VhdlFrontEnd.Text.CodeRange

/-!
# White space

The characters with the Unicode property white space, which are more than the blanks between
tokens.
-/

namespace VhdlFrontEnd.Text

/-- The code points of white space. -/
def spaceRanges : CodeRanges :=
  [(0x9, 0xD), (0x20, 0x20), (0x85, 0x85), (0xA0, 0xA0), (0x1680, 0x1680), (0x2000, 0x200A),
   (0x2028, 0x2029), (0x202F, 0x202F), (0x205F, 0x205F), (0x3000, 0x3000)]

/-- The character is white space. -/
def isSpace (c : Char) : Bool := spaceRanges.contains c

/-- Every blank between tokens is white space. -/
theorem isSpace_of_isBlank {c : Char} (h : isBlank c) : isSpace c := by
  simp only [isBlank, Bool.or_eq_true, beq_iff_eq] at h
  rcases h with ((((rfl | rfl) | rfl) | rfl) | rfl) | rfl <;> decide

end VhdlFrontEnd.Text
