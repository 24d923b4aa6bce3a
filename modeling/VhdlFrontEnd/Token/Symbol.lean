import VhdlFrontEnd.Text.Charset

/-!
# Delimiters and operators

Each symbol has one spelling and no two symbols share one. Main statement: `longest?` finds a
symbol exactly if some spelling stands at the front of the text, and no longer spelling does.
-/

namespace VhdlFrontEnd

/-- The delimiters and operators of the language. -/
inductive Symbol
  | blockCommentStart | blockCommentEnd | leftParen | rightParen | leftBracket | rightBracket
  | colon | semicolon | comma | dot | tick | arrow | assign | bar | box | doubleStar | equal
  | notEqual | less | lessEqual | greater | greaterEqual | matchEqual | matchNotEqual
  | matchLess | matchLessEqual | matchGreater | matchGreaterEqual | plus | minus | ampersand
  | question | condition | doubleLess | doubleGreater | caret | doubleAmpersand | doubleBar
  | leftBrace | rightBrace | bang | leftBracketStar | leftBracketPlus | leftBracketArrow
  | leftBracketEqual | barArrow | barDoubleArrow | rightArrow | leftRightArrow | at | star
  | slash
deriving DecidableEq, Repr, Inhabited

namespace Symbol

/-- All symbols. The order is that of the language's tables: comment marks, delimiters,
relational, matching and adding operators, later delimiters, property operators, and the
multiplying operators. -/
def all : List Symbol := [
  .blockCommentStart, .blockCommentEnd, .leftParen, .rightParen, .leftBracket, .rightBracket,
  .colon, .semicolon, .comma, .dot, .tick, .arrow, .assign, .bar, .box, .doubleStar, .equal,
  .notEqual, .less, .lessEqual, .greater, .greaterEqual, .matchEqual, .matchNotEqual,
  .matchLess, .matchLessEqual, .matchGreater, .matchGreaterEqual, .plus, .minus, .ampersand,
  .question, .condition, .doubleLess, .doubleGreater, .caret, .doubleAmpersand, .doubleBar,
  .leftBrace, .rightBrace, .bang, .leftBracketStar, .leftBracketPlus, .leftBracketArrow,
  .leftBracketEqual, .barArrow, .barDoubleArrow, .rightArrow, .leftRightArrow, .at, .star,
  .slash]

def spelling : Symbol → String
  | .blockCommentStart => "/*"
  | .blockCommentEnd => "*/"
  | .leftParen => "("
  | .rightParen => ")"
  | .leftBracket => "["
  | .rightBracket => "]"
  | .colon => ":"
  | .semicolon => ";"
  | .comma => ","
  | .dot => "."
  | .tick => "'"
  | .arrow => "=>"
  | .assign => ":="
  | .bar => "|"
  | .box => "<>"
  | .doubleStar => "**"
  | .equal => "="
  | .notEqual => "/="
  | .less => "<"
  | .lessEqual => "<="
  | .greater => ">"
  | .greaterEqual => ">="
  | .matchEqual => "?="
  | .matchNotEqual => "?/="
  | .matchLess => "?<"
  | .matchLessEqual => "?<="
  | .matchGreater => "?>"
  | .matchGreaterEqual => "?>="
  | .plus => "+"
  | .minus => "-"
  | .ampersand => "&"
  | .question => "?"
  | .condition => "??"
  | .doubleLess => "<<"
  | .doubleGreater => ">>"
  | .caret => "^"
  | .doubleAmpersand => "&&"
  | .doubleBar => "||"
  | .leftBrace => "\x7b"
  | .rightBrace => "\x7d"
  | .bang => "!"
  | .leftBracketStar => "[*"
  | .leftBracketPlus => "[+]"
  | .leftBracketArrow => "[->"
  | .leftBracketEqual => "[="
  | .barArrow => "|->"
  | .barDoubleArrow => "|=>"
  | .rightArrow => "->"
  | .leftRightArrow => "<->"
  | .at => "@"
  | .star => "*"
  | .slash => "/"

def name : Symbol → String
  | .blockCommentStart => "BlockCommentStart"
  | .blockCommentEnd => "BlockCommentEnd"
  | .leftParen => "LeftParen"
  | .rightParen => "RightParen"
  | .leftBracket => "LeftBracket"
  | .rightBracket => "RightBracket"
  | .colon => "Colon"
  | .semicolon => "Semicolon"
  | .comma => "Comma"
  | .dot => "Dot"
  | .tick => "Tick"
  | .arrow => "Arrow"
  | .assign => "Assign"
  | .bar => "Bar"
  | .box => "Box"
  | .doubleStar => "DoubleStar"
  | .equal => "Equal"
  | .notEqual => "NotEqual"
  | .less => "Less"
  | .lessEqual => "LessEqual"
  | .greater => "Greater"
  | .greaterEqual => "GreaterEqual"
  | .matchEqual => "MatchEqual"
  | .matchNotEqual => "MatchNotEqual"
  | .matchLess => "MatchLess"
  | .matchLessEqual => "MatchLessEqual"
  | .matchGreater => "MatchGreater"
  | .matchGreaterEqual => "MatchGreaterEqual"
  | .plus => "Plus"
  | .minus => "Minus"
  | .ampersand => "Ampersand"
  | .question => "Question"
  | .condition => "Condition"
  | .doubleLess => "DoubleLess"
  | .doubleGreater => "DoubleGreater"
  | .caret => "Caret"
  | .doubleAmpersand => "DoubleAmpersand"
  | .doubleBar => "DoubleBar"
  | .leftBrace => "LeftBrace"
  | .rightBrace => "RightBrace"
  | .bang => "Bang"
  | .leftBracketStar => "LeftBracketStar"
  | .leftBracketPlus => "LeftBracketPlus"
  | .leftBracketArrow => "LeftBracketArrow"
  | .leftBracketEqual => "LeftBracketEqual"
  | .barArrow => "BarArrow"
  | .barDoubleArrow => "BarDoubleArrow"
  | .rightArrow => "RightArrow"
  | .leftRightArrow => "LeftRightArrow"
  | .at => "At"
  | .star => "Star"
  | .slash => "Slash"

/-- The symbols that stand at the front of a text. -/
def candidates (cs : List Char) : List Symbol :=
  all.filter fun s => s.spelling.toList.isPrefixOf cs

/-- Of two symbols the one with the longer spelling. -/
def longer (s t : Symbol) : Symbol :=
  if s.spelling.toList.length < t.spelling.toList.length then t else s

/-- The symbol with the longest spelling at the front of a text. -/
def longest? (cs : List Char) : Option Symbol :=
  match candidates cs with
  | [] => none
  | s :: rest => some (rest.foldl longer s)

/-- The closer of a parenthesis or a bracket. -/
def closer? : Symbol → Option Symbol
  | leftParen => some rightParen
  | leftBracket => some rightBracket
  | _ => none

theorem mem_all (s : Symbol) : s ∈ all := by cases s <;> decide

theorem spelling_injective {s t : Symbol} (h : s.spelling = t.spelling) : s = t := by
  have : ∀ s ∈ all, ∀ t ∈ all, s.spelling = t.spelling → s = t := by decide +kernel
  exact this s (mem_all s) t (mem_all t) h

theorem mem_candidates {cs : List Char} {s : Symbol} :
    s ∈ candidates cs ↔ s.spelling.toList <+: cs := by
  simp [candidates, mem_all]

/-- A fold of `longer` ends at one of its symbols, which is as long as any of them. -/
theorem foldl_longer (s : Symbol) (rest : List Symbol) :
    rest.foldl longer s ∈ s :: rest ∧
      ∀ t ∈ s :: rest, t.spelling.toList.length ≤ (rest.foldl longer s).spelling.toList.length := by
  induction rest generalizing s with
  | nil => simp
  | cons u rest ih =>
    obtain ⟨hmem, hmax⟩ := ih (longer s u)
    have hs : s.spelling.toList.length ≤ (longer s u).spelling.toList.length := by
      unfold longer; split <;> omega
    have hu : u.spelling.toList.length ≤ (longer s u).spelling.toList.length := by
      unfold longer; split <;> omega
    have hcase : longer s u = s ∨ longer s u = u := by
      unfold longer; split <;> simp
    rw [List.foldl_cons]
    constructor
    · rcases List.mem_cons.mp hmem with h | h
      · rcases hcase with e | e <;> rw [h, e] <;> simp
      · exact List.mem_cons_of_mem _ (List.mem_cons_of_mem _ h)
    · intro t ht
      have htop := hmax _ List.mem_cons_self
      rcases List.mem_cons.mp ht with rfl | ht
      · exact Nat.le_trans hs htop
      · rcases List.mem_cons.mp ht with rfl | ht
        · exact Nat.le_trans hu htop
        · exact hmax t (List.mem_cons_of_mem _ ht)

theorem longest?_eq_none {cs : List Char} :
    longest? cs = none ↔ ∀ s : Symbol, ¬ s.spelling.toList <+: cs := by
  unfold longest?
  split
  · next h =>
    simp only [true_iff]
    intro s hs
    rw [← mem_candidates, h] at hs
    exact absurd hs List.not_mem_nil
  · next s rest h =>
    refine ⟨fun e => (nomatch e), fun all => ?_⟩
    exact absurd (mem_candidates.mp (h ▸ List.mem_cons_self)) (all s)

/-- The longest symbol stands at the front, and no symbol there is longer. -/
theorem longest?_eq_some {cs : List Char} {s : Symbol} (h : longest? cs = some s) :
    s.spelling.toList <+: cs ∧
      ∀ t : Symbol, t.spelling.toList <+: cs →
        t.spelling.toList.length ≤ s.spelling.toList.length := by
  unfold longest? at h
  split at h
  · exact nomatch h
  · next u rest hc =>
    obtain ⟨hmem, hmax⟩ := foldl_longer u rest
    cases h
    rw [← hc] at hmem hmax
    exact ⟨mem_candidates.mp hmem, fun t ht => hmax t (mem_candidates.mpr ht)⟩

/-- A symbol at the front that no other there is longer than is the one that is found. -/
theorem longest?_of_front {cs : List Char} {s : Symbol} (front : s.spelling.toList <+: cs)
    (longest : ∀ t : Symbol, t.spelling.toList <+: cs →
      t.spelling.toList.length ≤ s.spelling.toList.length) : longest? cs = some s := by
  cases found : longest? cs with
  | none => exact absurd front (longest?_eq_none.mp found s)
  | some t =>
    obtain ⟨stands, none_longer⟩ := longest?_eq_some found
    have same : t.spelling.toList = s.spelling.toList :=
      (List.prefix_of_prefix_length_le stands front (longest t stands)).eq_of_length
        (Nat.le_antisymm (longest t stands) (none_longer s front))
    rw [spelling_injective (String.toList_inj.mp same)]

end Symbol

end VhdlFrontEnd
