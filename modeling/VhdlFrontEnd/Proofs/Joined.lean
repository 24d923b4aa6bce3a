import VhdlFrontEnd.Proofs.Below
import VhdlFrontEnd.Proofs.Renaming
import VhdlFrontEnd.Proofs.Run
import VhdlFrontEnd.Proofs.Sequence
import VhdlFrontEnd.Proofs.TokenOrder

/-!
# A source in two parts

A source whose lines are those of two others has their tokens and lexical reports, and its outline
is made of their outlines, if the first part ends with a semicolon (`Joins.outline`).
-/

namespace VhdlFrontEnd

theorem Arena.enumerated_append {α : Type} {a b c : Arena α} (h : c.toList = a.toList ++ b.toList) :
    c.enumerated = a.enumerated ++ b.enumerated.map fun x => (x.1 + a.size, x.2) := by
  rw [enumerated, enumerated, enumerated, h, List.zipIdx_append, List.map_append, Nat.add_comm 0,
    ← List.map_snd_add_zipIdx_eq_zipIdx, List.map_map, List.map_map, size_eq]
  rfl

namespace Source

/-! ### All tokens of a source -/

theorem upToEof_allTokens (s : Source) : Outline.upToEof s.allTokens = s.scan.filterMap (·.token?) := by
  rw [allTokens, Outline.upToEof_append _ fun t mem => (placed_of_scan mem).1, Outline.upToEof_eof [] rfl,
    List.append_nil]

theorem endSpan_allTokens (s : Source) :
    Outline.endSpan s s.allTokens = Outline.tokenSpan s s.eofToken :=
  Outline.endSpan_eof [] (fun _ mem => (placed_of_scan mem).1) rfl

/-! ### Two parts -/

/-- The lines of `c` are those of `a` and then those of `b`, and an apostrophe at the start of `b` is
read as behind no token. -/
structure Joins (a b c : Source) : Prop where
  lines : c.lines.toList = a.lines.toList ++ b.lines.toList
  left_width : c.tabWidth = a.tabWidth
  right_width : c.tabWidth = b.tabWidth
  seam : SameTick (kindAfter none a.codeLines) none
  nonempty : 0 < b.lineCount

variable {a b c : Source}

namespace Joins

variable (joins : Joins a b c)

include joins

/-! ### Lines -/

theorem lineCount : c.lineCount = a.lineCount + b.lineCount := by
  rw [Source.lineCount, Source.lineCount, Source.lineCount, Arena.size_eq, Arena.size_eq, Arena.size_eq,
    joins.lines, List.length_append]

theorem lineCount_pos : 0 < c.lineCount := by
  rw [joins.lineCount]
  exact Nat.add_pos_right _ joins.nonempty

theorem get?_left {i : Nat} (inside : i < a.lineCount) : c.lines.get? i = a.lines.get? i := by
  rw [Arena.get?_eq, Arena.get?_eq, joins.lines]
  rw [Source.lineCount, Arena.size_eq] at inside
  exact List.getElem?_append_left inside

theorem get?_right (i : Nat) : c.lines.get? (i + a.lineCount) = b.lines.get? i := by
  rw [Arena.get?_eq, Arena.get?_eq, joins.lines, Source.lineCount, Arena.size_eq,
    List.getElem?_append_right (Nat.le_add_left _ _), Nat.add_sub_cancel]

theorem codeLines : c.codeLines =
    a.codeLines ++ b.codeLines.map fun line => (line.1 + a.lineCount, line.2) := by
  rw [Source.codeLines, Arena.enumerated_append joins.lines, List.filter_append, List.filter_map]
  rfl

/-! ### Tokens -/

theorem scan : c.scan = a.scan ++ b.scan.map (·.below a.lineCount) := by
  have left : c.scanTabWidth = a.scanTabWidth := by rw [scanTabWidth, joins.left_width]; rfl
  have right : c.scanTabWidth = b.scanTabWidth := by rw [scanTabWidth, joins.right_width]; rfl
  rw [Source.scan, joins.codeLines, scanLines_append, scanLines_congr joins.seam, scanLines_below]
  nth_rewrite 1 [left]
  rw [right]
  rfl

theorem eofToken : c.eofToken = b.eofToken.below a.lineCount := by
  have count := joins.lineCount
  obtain ⟨last, found, eof⟩ := eofToken_eq joins.nonempty
  obtain ⟨last', found', eof'⟩ := eofToken_eq joins.lineCount_pos
  have index : c.lineCount - 1 = b.lineCount - 1 + a.lineCount := by
    have := joins.nonempty
    omega
  rw [index, joins.get?_right, found] at found'
  obtain rfl := Option.some.inj found'
  rw [eof', eof, index, joins.right_width, Token.below, Position.below, Nat.add_right_comm]

theorem tokens : c.scan.filterMap (·.token?) =
    a.scan.filterMap (·.token?) ++ (b.scan.filterMap (·.token?)).map (·.below a.lineCount) := by
  rw [joins.scan, List.filterMap_append, List.filterMap_map, List.map_filterMap]
  simp only [Function.comp_def, Located.token?_below]

theorem allTokens : c.allTokens =
    a.scan.filterMap (·.token?) ++ b.allTokens.map (·.below a.lineCount) := by
  rw [Source.allTokens, Source.allTokens, joins.tokens, joins.eofToken, List.map_append, List.append_assoc]
  rfl

theorem lexicalReports : c.lexicalReports =
    a.lexicalReports ++ b.lexicalReports.map (·.below a.lineCount) := by
  rw [Source.lexicalReports, Source.lexicalReports, Source.lexicalReports, joins.scan,
    List.filterMap_append, List.filterMap_map, List.map_filterMap]
  simp only [Function.comp_def, Located.report?_below]

theorem spelling_left {t : Token} (inside : t.range.line < a.lineCount) : c.spelling t = a.spelling t := by
  rw [spelling, spelling, slice, slice, joins.get?_left inside]

theorem spelling_right (t : Token) : c.spelling (t.below a.lineCount) = b.spelling t := by
  rw [spelling, spelling, slice, slice, Token.below, joins.get?_right]

theorem moves_right : Outline.Moves (·.below a.lineCount) (·.below a.lineCount) id b c :=
  ⟨fun _ => rfl, fun _ => rfl, fun t => by rw [List.map_id, joins.spelling_right], rfl⟩

end Joins

theorem get?_eq_none {s : Source} {i : Nat} (outside : s.lineCount ≤ i) : s.lines.get? i = none := by
  rw [Source.lineCount, Arena.size_eq] at outside
  rw [Arena.get?_eq, List.getElem?_eq_none outside]

theorem line_lt_of_scan {s : Source} {t : Token} (mem : t ∈ s.scan.filterMap (·.token?)) :
    t.range.line < s.lineCount := by
  obtain ⟨-, line, _, _, between, -⟩ := placed_of_scan mem
  by_contra outside
  exact absurd between.found (by simp [get?_eq_none (Nat.le_of_not_lt outside)])

/-- A token that lies past the lines of the first part is kept past all lines. -/
def outward (a b : Source) (t : Token) : Token :=
  if t.range.line < a.lineCount then t
  else { t with range := { t.range with line := t.range.line + b.lineCount } }

theorem map_outward (a b : Source) : (a.scan.filterMap (·.token?)).map (outward a b) =
    a.scan.filterMap (·.token?) := by
  have stays : ∀ t ∈ a.scan.filterMap (·.token?), outward a b t = t := fun t mem =>
    if_pos (line_lt_of_scan mem)
  rw [List.map_congr_left stays, List.map_id']

namespace Joins

variable (joins : Joins a b c)

include joins

theorem moves_left : Outline.Moves (outward a b) id id a c := by
  refine ⟨fun t => ?_, fun t => ?_, fun t => ?_, rfl⟩
  · unfold outward
    split <;> rfl
  · unfold outward
    split <;> rfl
  · rw [List.map_id, outward]
    split
    · next inside => exact joins.spelling_left inside
    · next outside =>
      -- Neither source has the line, so that the token is spelled by nothing in both.
      have past : c.lineCount ≤ t.range.line + b.lineCount := by
        rw [joins.lineCount]
        omega
      rw [spelling, spelling, slice, slice, get?_eq_none past, get?_eq_none (Nat.le_of_not_lt outside)]

/-! ### The outline -/

theorem endSpan : Outline.endSpan c c.allTokens =
    ⟨(Outline.endSpan b b.allTokens).start.below a.lineCount, (Outline.endSpan b b.allTokens).length⟩ := by
  rw [endSpan_allTokens, endSpan_allTokens, joins.eofToken, Outline.tokenSpan, joins.spelling_right]
  rfl

variable (whole : Outline.EndWhole (a.scan.filterMap (·.token?)))

include whole

/-- What is seen of the statements of both parts is what is seen of each of them, in its place. -/
theorem statements {β : Type} {look look' : Outline.Statement → Option β} (same : Outline.SeeSame look look') :
    (Outline.statements (Outline.spelled c) (Outline.upToEof c.allTokens)).filterMap look =
      (Outline.statements (Outline.spelled c)
          ((Outline.upToEof a.allTokens).map (outward a b))).filterMap look' ++
        (Outline.statements (Outline.spelled c)
          ((Outline.upToEof b.allTokens).map (·.below a.lineCount))).filterMap look := by
  rw [upToEof_allTokens, upToEof_allTokens, upToEof_allTokens, joins.tokens, map_outward]
  exact Outline.statements_append same _ _ whole

theorem units : (Outline.parse c c.allTokens).1.units = (Outline.parse a a.allTokens).1.units ++
    (Outline.parse b b.allTokens).1.units.map (Outline.movedUnit (·.below a.lineCount)) := by
  have parts := joins.statements whole Outline.seeSame_unit?
  rw [joins.moves_left.units, joins.moves_right.units, Outline.renamedUnit_id, Outline.renamedUnit_id,
    Outline.movedUnit_id, List.map_id] at parts
  exact parts

omit whole in
theorem tokenCount : (Outline.parse c c.allTokens).1.tokenCount =
    (Outline.parse a a.allTokens).1.tokenCount + (Outline.parse b b.allTokens).1.tokenCount := by
  have inner : a.allTokens.countP (·.kind ≠ .eof) =
      (a.scan.filterMap (·.token?)).countP (·.kind ≠ .eof) := by
    rw [Source.allTokens, List.countP_append]
    rfl
  have all := congrArg (List.countP (·.kind ≠ .eof)) joins.allTokens
  rw [List.countP_append, List.countP_map, ← inner] at all
  exact all

theorem outlineReports :
    c.outlineReports = a.outlineReports ++ b.outlineReports.map (·.below a.lineCount) := by
  have parts := joins.statements whole
    (Outline.seeSame_report? c (Outline.endSpan c c.allTokens) (Outline.endSpan a a.allTokens))
  have left := joins.moves_left.reports (Outline.endSpan a a.allTokens) (Outline.upToEof a.allTokens)
  have right := joins.moves_right.reports (Outline.endSpan b b.allTokens) (Outline.upToEof b.allTokens)
  rw [Outline.movedReport_id, List.map_id] at left
  rw [← joins.endSpan] at right
  exact parts.trans (congrArg₂ _ left right)

end Joins

end Source

end VhdlFrontEnd
