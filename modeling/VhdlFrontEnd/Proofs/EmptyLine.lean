import Mathlib.Data.List.InsertIdx
import Mathlib.Order.Monotone.Basic
import VhdlFrontEnd.Proofs.Concatenation
import VhdlFrontEnd.Proofs.Region
import VhdlFrontEnd.Proofs.Renumbering

/-!
# An empty line more

An empty line between two lines, or before the first, moves the lines behind it and changes nothing
else: `empty_line_moves_lines` compares the whole run over a source with the run over the source with
an empty line in it.
-/

namespace VhdlFrontEnd

open Diagnostic

theorem insertIdx_eq_append {α : Type} {k : Nat} {xs : List α} (inside : k ≤ xs.length) (x : α) :
    xs.insertIdx k x = xs.take k ++ x :: xs.drop k := by
  induction xs generalizing k with
  | nil =>
    obtain rfl : k = 0 := Nat.le_zero.mp inside
    rfl
  | cons y xs ih =>
    cases k with
    | zero => rfl
    | succ k => exact congrArg (y :: ·) (ih (Nat.le_of_succ_le_succ inside))

/-! ### The lines of the text -/

namespace Text

/-- The text with an empty line before the line with index `k`. -/
def withEmptyLine : Nat → List Char → List Char
  | 0, cs => '\n' :: cs
  | _ + 1, [] => []
  | k + 1, c :: cs => c :: withEmptyLine (if c = '\n' then k else k + 1) cs

theorem splitOn_newline_cons (cs : List Char) : ('\n' :: cs).splitOn '\n' = [] :: cs.splitOn '\n' := by
  rw [List.splitOn_cons_eq_if_modifyHead, if_pos (beq_self_eq_true '\n')]

theorem splitOn_cons_of_ne {c : Char} (other : c ≠ '\n') (cs : List Char) :
    (c :: cs).splitOn '\n' = (cs.splitOn '\n').modifyHead (c :: ·) := by
  rw [List.splitOn_cons_eq_if_modifyHead, if_neg (by simpa using other)]

theorem splitOn_withEmptyLine {k : Nat} {cs : List Char} (inside : k < (cs.splitOn '\n').length) :
    (withEmptyLine k cs).splitOn '\n' = (cs.splitOn '\n').insertIdx k [] := by
  induction cs generalizing k with
  | nil =>
    obtain rfl : k = 0 := Nat.lt_one_iff.mp inside
    rfl
  | cons c cs ih =>
    cases k with
    | zero => exact splitOn_newline_cons (c :: cs)
    | succ k =>
      rw [withEmptyLine]
      by_cases newline : c = '\n'
      · subst newline
        rw [splitOn_newline_cons] at inside ⊢
        rw [if_pos rfl, splitOn_newline_cons, ih (Nat.lt_of_succ_lt_succ inside), List.insertIdx_succ_cons]
      · rw [splitOn_cons_of_ne newline, List.length_modifyHead] at inside
        rw [if_neg newline, splitOn_cons_of_ne newline, splitOn_cons_of_ne newline, ih inside]
        obtain ⟨piece, pieces, cut⟩ := List.exists_cons_of_ne_nil (List.splitOn_ne_nil '\n' cs)
        rw [cut]
        rfl

theorem splitLines_withEmptyLine {k : Nat} {cs : List Char} (inside : k < (splitLines cs).length) :
    splitLines (withEmptyLine k cs) = (splitLines cs).insertIdx k [] := by
  unfold splitLines at inside ⊢
  dsimp only at inside ⊢
  split at inside
  · next ends =>
    obtain ⟨lines, cut⟩ := List.getLast?_eq_some_iff.mp ends
    rw [cut, List.dropLast_concat] at inside
    have pieces : (withEmptyLine k cs).splitOn '\n' = lines.insertIdx k [] ++ [[]] := by
      rw [splitOn_withEmptyLine (by rw [cut, List.length_append]; exact Nat.lt_add_right 1 inside), cut,
        insertIdx_eq_append inside.le, insertIdx_eq_append (by rw [List.length_append]; omega),
        List.take_append_of_le_length inside.le, List.drop_append_of_le_length inside.le, List.append_assoc]
      rfl
    rw [pieces, cut, List.getLast?_concat, List.getLast?_concat, if_pos rfl, if_pos rfl,
      List.dropLast_concat, List.dropLast_concat]
  · next no_end =>
    have some_piece : (cs.splitOn '\n').drop k ≠ [] := by
      rw [ne_eq, List.drop_eq_nil_iff]
      exact Nat.not_le_of_lt inside
    have last : ((withEmptyLine k cs).splitOn '\n').getLast? = (cs.splitOn '\n').getLast? := by
      rw [splitOn_withEmptyLine inside, insertIdx_eq_append inside.le, List.getLast?_append_cons,
        List.getLast?_cons_of_ne_nil some_piece, ← List.getLast?_append_of_ne_nil _ some_piece,
        List.take_append_drop]
    rw [last, if_neg no_end, if_neg no_end, splitOn_withEmptyLine inside]

theorem head?_withEmptyLine {k : Nat} {cs : List Char} (no_mark : cs.head? ≠ some '\ufeff') :
    (withEmptyLine k cs).head? ≠ some '\ufeff' := by
  cases k with
  | zero => simp [withEmptyLine]
  | succ k =>
    cases cs with
    | nil => exact no_mark
    | cons c cs => exact no_mark

theorem physicalLines_withEmptyLine {k : Nat} {cs : List Char} (no_mark : cs.head? ≠ some '\ufeff')
    (inside : k < (physicalLines cs).length) :
    physicalLines (withEmptyLine k cs) = (physicalLines cs).insertIdx k [] := by
  rw [physicalLines, dropMark_of_head? no_mark, List.length_map] at inside
  rw [physicalLines, physicalLines, dropMark_of_head? no_mark, dropMark_of_head? (head?_withEmptyLine no_mark),
    splitLines_withEmptyLine inside, List.map_insertIdx]
  rfl

end Text

/-! ### The lines of the source -/

namespace Source

/-- The source `s'` has the lines of `s` and, at index `k`, an empty line that holds no tokens. -/
structure HasGap (k : Nat) (s s' : Source) : Prop where
  lines : ∃ role, ¬ Category.isCode role ∧ s'.lines.toList = s.lines.toList.insertIdx k ⟨role, []⟩
  width : s'.tabWidth = s.tabWidth
  inside : k < s.lineCount

namespace HasGap

variable {k : Nat} {s s' : Source} (gap : HasGap k s s')

include gap

theorem inside_lines : k < s.lines.toList.length := by
  have inside := gap.inside
  rwa [Source.lineCount, Arena.size_eq] at inside

theorem lineCount : s'.lineCount = s.lineCount + 1 := by
  obtain ⟨role, -, lines⟩ := gap.lines
  rw [Source.lineCount, Source.lineCount, Arena.size_eq, Arena.size_eq, lines,
    List.length_insertIdx_of_le_length gap.inside_lines.le]

theorem get?_index (i : Nat) : s'.lines.get? ((Renumbering.gapAt k).index i) = s.lines.get? i := by
  obtain ⟨role, -, lines⟩ := gap.lines
  rw [Arena.get?_eq, Arena.get?_eq, lines, Renumbering.gapAt]
  dsimp only
  split
  · next above => exact List.getElem?_insertIdx_of_lt above
  · next below => exact List.getElem?_insertIdx_of_gt (Nat.lt_succ_of_le (Nat.le_of_not_lt below))

theorem enumerated : ∃ role, ¬ Category.isCode role ∧ s'.lines.enumerated =
    (s.lines.enumerated.map fun line => ((Renumbering.gapAt k).index line.1, line.2)).insertIdx k
      (k, ⟨role, []⟩) := by
  obtain ⟨role, no_code, lines⟩ := gap.lines
  refine ⟨role, no_code, List.ext_getElem? fun i => ?_⟩
  have inside := gap.inside_lines
  simp only [Arena.enumerated, lines, List.getElem?_map, List.getElem?_zipIdx, List.getElem?_insertIdx,
    List.length_map, List.length_zipIdx, Renumbering.gapAt]
  split
  · next above => simp [above, Function.comp_def]
  · next no_above =>
    split
    · next here => simp [here, inside.le]
    · next below =>
      have back : ¬ i - 1 < k := by omega
      have behind : i - 1 + 1 = i := by omega
      simp [back, behind, Function.comp_def]

theorem codeLines :
    s'.codeLines = s.codeLines.map fun line => ((Renumbering.gapAt k).index line.1, line.2) := by
  obtain ⟨role, no_code, all⟩ := gap.enumerated
  have inside : k ≤ (s.lines.enumerated.map fun line =>
      ((Renumbering.gapAt k).index line.1, line.2)).length := by
    rw [List.length_map, Arena.enumerated, List.length_map, List.length_zipIdx]
    exact gap.inside_lines.le
  rw [Source.codeLines, all, insertIdx_eq_append inside, List.filter_append,
    List.filter_cons_of_neg (by exact no_code), ← List.filter_append, List.take_append_drop, List.filter_map]
  rfl

/-! ### Tokens -/

theorem scan : s'.scan = s.scan.map (·.renumbered (.gapAt k)) := by
  have width : s'.scanTabWidth = s.scanTabWidth := by rw [scanTabWidth, gap.width]; rfl
  rw [Source.scan, gap.codeLines, scanLines_renumbered, width]
  rfl

theorem eofToken : s'.eofToken = s.eofToken.renumbered (.gapAt k) := by
  have some_line : 0 < s.lineCount := Nat.zero_lt_of_lt gap.inside
  obtain ⟨last, found, eof⟩ := eofToken_eq some_line
  obtain ⟨last', found', eof'⟩ := eofToken_eq (s := s') (by rw [gap.lineCount]; exact Nat.succ_pos _)
  have behind : ¬ s.lineCount - 1 < k := by
    have := gap.inside
    omega
  have index : (Renumbering.gapAt k).index (s.lineCount - 1) = s'.lineCount - 1 := by
    rw [gap.lineCount, Nat.add_sub_cancel, Renumbering.gapAt]
    dsimp only
    rw [if_neg behind, Nat.sub_add_cancel some_line]
  rw [← index, gap.get?_index, found] at found'
  obtain rfl := Option.some.inj found'
  rw [eof', eof, ← index, gap.width, Token.renumbered, Position.renumbered, Renumbering.number_succ]

theorem allTokens : s'.allTokens = s.allTokens.map (·.renumbered (.gapAt k)) := by
  rw [Source.allTokens, Source.allTokens, gap.scan, gap.eofToken, List.filterMap_map, List.map_append,
    List.map_filterMap]
  simp only [Function.comp_def, Located.token?_renumbered]
  rfl

theorem lexicalReports : s'.lexicalReports = s.lexicalReports.map (·.renumbered (.gapAt k)) := by
  rw [Source.lexicalReports, Source.lexicalReports, gap.scan, List.filterMap_map, List.map_filterMap]
  simp only [Function.comp_def, Located.report?_renumbered]

theorem spelling (t : Token) : s'.spelling (t.renumbered (.gapAt k)) = s.spelling t := by
  rw [Source.spelling, Source.spelling, slice, slice, Token.renumbered, gap.get?_index]

/-! ### The outline -/

theorem moves : Outline.Moves (·.renumbered (.gapAt k)) (·.renumbered (.gapAt k)) id s s' :=
  ⟨fun _ => rfl, fun _ => rfl, fun t => by rw [List.map_id, gap.spelling], rfl⟩

theorem upToEof : Outline.upToEof s'.allTokens =
    (Outline.upToEof s.allTokens).map (·.renumbered (.gapAt k)) := by
  rw [gap.allTokens, Outline.upToEof, List.takeWhile_map]
  rfl

theorem units : (Outline.parse s' s'.allTokens).1.units =
    (Outline.parse s s.allTokens).1.units.map (Outline.movedUnit (·.renumbered (.gapAt k))) := by
  have moved := gap.moves.units (Outline.upToEof s.allTokens)
  rw [← gap.upToEof, Outline.renamedUnit_id] at moved
  exact moved

theorem tokenCount :
    (Outline.parse s' s'.allTokens).1.tokenCount = (Outline.parse s s.allTokens).1.tokenCount := by
  have all := congrArg (List.countP (·.kind ≠ .eof)) gap.allTokens
  rw [List.countP_map] at all
  exact all

theorem outlineReports : s'.outlineReports = s.outlineReports.map (·.renumbered (.gapAt k)) := by
  have moved := gap.moves.reports (Outline.endSpan s s.allTokens) (Outline.upToEof s.allTokens)
  have atEnd : Outline.endSpan s' s'.allTokens = ⟨(Outline.endSpan s s.allTokens).start.renumbered (.gapAt k),
      (Outline.endSpan s s.allTokens).length⟩ := by
    rw [endSpan_allTokens, endSpan_allTokens, gap.eofToken, Outline.tokenSpan, gap.spelling]
    rfl
  rw [← atEnd, ← gap.upToEof] at moved
  exact moved

end HasGap

/-! ### Loading -/

/-- The role of an empty line: it is blank unless a comment is open before it. -/
def emptyLineRole (open? : Option Position) : Category :=
  if open?.isSome then .blockCommentBody else .blank

theorem readLine_nil (place : LinePlace) (open? : Option Position) :
    readLine place open? [] = ⟨⟨emptyLineRole open?, []⟩, open?, []⟩ := by
  cases open? <;> rfl

theorem emptyLineRole_not_code (open? : Option Position) : ¬ (emptyLineRole open?).isCode := by
  unfold emptyLineRole
  split <;> decide

section Loading

variable (w : Nat) (front rest : List (List Char))

/-- Lines before the gap keep their numbers. -/
theorem readLines_before_gap :
    (readLines w 1 none front).map (·.renumbered (.gapAt front.length)) = readLines w 1 none front := by
  refine (readLines_renumbered (.gapAt front.length) none fun i inside => if_pos ?_).symm
  omega

theorem openAfter_before_gap :
    (openAfter none (readLines w 1 none front)).map (·.renumbered (.gapAt front.length)) =
      openAfter none (readLines w 1 none front) := by
  have moved := openAfter_renumbered (.gapAt front.length) none (readLines w 1 none front)
  rw [readLines_before_gap] at moved
  exact moved.symm

theorem readLines_gap : readLines w 1 none (front ++ [] :: rest) =
    (readLines w 1 none front).map (·.renumbered (.gapAt front.length)) ++
      ⟨⟨emptyLineRole (openAfter none (readLines w 1 none front)), []⟩,
        openAfter none (readLines w 1 none front), []⟩ ::
      (readLines w (1 + front.length) (openAfter none (readLines w 1 none front)) rest).map
        (·.renumbered (.gapAt front.length)) := by
  have behind : readLines w (1 + front.length + 1)
      ((openAfter none (readLines w 1 none front)).map (·.renumbered (.gapAt front.length))) rest =
        (readLines w (1 + front.length) (openAfter none (readLines w 1 none front)) rest).map
          (·.renumbered (.gapAt front.length)) :=
    readLines_renumbered _ _ fun i _ => (if_neg (by omega)).trans (by omega)
  rw [openAfter_before_gap] at behind
  rw [readLines_append, readLines_before_gap, readLines, readLine_nil, behind]

theorem lines_ofLines_gap : (ofLines w (front ++ [] :: rest)).source.lines.toList =
    (ofLines w (front ++ rest)).source.lines.toList.insertIdx front.length
      ⟨emptyLineRole (openAfter none (readLines w 1 none front)), []⟩ := by
  have count : ((readLines w 1 none front).map (·.line)).length = front.length := by
    rw [List.length_map, length_readLines]
  have inside : front.length ≤ ((readLines w 1 none (front ++ rest)).map (·.line)).length := by
    rw [List.length_map, length_readLines, List.length_append]
    exact Nat.le_add_right _ _
  unfold ofLines
  dsimp only
  rw [Arena.toList_ofList, Arena.toList_ofList, readLines_gap, insertIdx_eq_append inside, readLines_append,
    List.map_append, List.map_append, List.take_left' count, List.drop_left' count, List.map_map,
    List.map_cons, List.map_map]
  rfl

theorem openAfter_ofLines_gap : openAfter none (readLines w 1 none (front ++ [] :: rest)) =
    (openAfter none (readLines w 1 none (front ++ rest))).map (·.renumbered (.gapAt front.length)) := by
  rw [readLines_gap, readLines_append, openAfter_append, openAfter_cons, openAfter_append,
    ← openAfter_renumbered, openAfter_before_gap]

theorem reports_ofLines_gap : (ofLines w (front ++ [] :: rest)).reports =
    (ofLines w (front ++ rest)).reports.map (·.renumbered (.gapAt front.length)) := by
  have unterminated : ((openAfter none (readLines w 1 none (front ++ [] :: rest))).map unterminatedError).toList =
      ((openAfter none (readLines w 1 none (front ++ rest))).map unterminatedError).toList.map
        (·.renumbered (.gapAt front.length)) := by
    rw [openAfter_ofLines_gap]
    cases openAfter none (readLines w 1 none (front ++ rest)) <;> rfl
  unfold ofLines
  dsimp only
  rw [unterminated, readLines_gap, readLines_append, List.map_append, List.flatMap_append, List.flatMap_append,
    List.flatMap_cons, List.map_append, List.flatMap_map, List.map_flatMap, List.flatMap_map, List.map_flatMap]
  rfl

end Loading

theorem ofText_gap {settings : SourceSettings} {code code' : List Char} {a : Loaded} {k : Nat}
    (load : ofText settings code = .ok a) (inside : k < a.source.lineCount)
    (lines : Text.physicalLines code' = (Text.physicalLines code).insertIdx k []) :
    ∃ b, ofText settings code' = .ok b ∧ b.source.lines.toList = a.source.lines.toList.insertIdx k
        ⟨emptyLineRole (openAfter none (firstReadings settings.tabWidth code k)), []⟩ ∧
      b.source.tabWidth = a.source.tabWidth ∧ b.reports = a.reports.map (·.renumbered (.gapAt k)) := by
  obtain ⟨short, rfl⟩ := ofText_eq_ok.mp load
  rw [lineCount_ofLines] at inside
  have short' : overlong? settings.maxLineLength (Text.physicalLines code') = none := by
    rw [overlong?_eq_none_iff] at short ⊢
    intro text mem
    rw [lines, List.mem_insertIdx inside.le] at mem
    rcases mem with rfl | old
    · exact Nat.zero_le _
    · exact short text old
  have cut : Text.physicalLines code =
      (Text.physicalLines code).take k ++ (Text.physicalLines code).drop k := (List.take_append_drop k _).symm
  have count : ((Text.physicalLines code).take k).length = k := List.length_take_of_le inside.le
  rw [insertIdx_eq_append inside.le] at lines
  refine ⟨_, ofText_eq_ok.mpr ⟨short', rfl⟩, ?_, rfl, ?_⟩
  · have moved := lines_ofLines_gap settings.tabWidth ((Text.physicalLines code).take k)
      ((Text.physicalLines code).drop k)
    rwa [← lines, ← cut, count] at moved
  · have moved := reports_ofLines_gap settings.tabWidth ((Text.physicalLines code).take k)
      ((Text.physicalLines code).drop k)
    rwa [← lines, ← cut, count] at moved

end Source

/-! ### What is shown -/

namespace Diagnostic

theorem eraseDupsBy_map {α β : Type} {f : α → β} {same : α → α → Bool} {same' : β → β → Bool}
    (agree : ∀ x y, same' (f x) (f y) = same x y) (xs : List α) :
    (xs.map f).eraseDupsBy same' = (xs.eraseDupsBy same).map f := by
  induction xs using eraseDupsBy_induction same with
  | nil => rfl
  | cons x rest ih =>
    rw [List.map_cons, List.eraseDupsBy_cons, List.eraseDupsBy_cons, List.map_cons, ← ih, List.filter_map]
    simp only [Function.comp_def, agree]

variable {r : Renumbering} (up : StrictMono r.number)

include up

theorem noLater_renumbered (d e : Diagnostic) : noLater (d.renumbered r) (e.renumbered r) = noLater d e := by
  rw [Bool.eq_iff_iff, noLater, noLater, Position.le_iff, Position.le_iff]
  exact or_congr up.lt_iff_lt (and_congr up.injective.eq_iff Iff.rfl)

theorem position_renumbered (d e : Diagnostic) :
    ((d.renumbered r).position == (e.renumbered r).position) = (d.position == e.position) := by
  rw [Bool.eq_iff_iff, beq_iff_eq, beq_iff_eq]
  refine ⟨fun same => ?_, fun same => congrArg (Position.renumbered r) same⟩
  obtain ⟨line, column⟩ := Position.mk.inj same
  exact congrArg₂ Position.mk (up.injective line) column

theorem sameReport_renumbered (d e : Diagnostic) :
    sameReport (d.renumbered r) (e.renumbered r) = sameReport d e := by
  rw [sameReport, sameReport, position_renumbered up]
  rfl

theorem outranked_renumbered (ds : List Diagnostic) (d : Diagnostic) :
    outranked (ds.map (·.renumbered r)) (d.renumbered r) = outranked ds d := by
  rw [outranked, outranked, List.any_map]
  simp only [Function.comp_def, position_renumbered up]
  rfl

theorem kept_renumbered (ds : List Diagnostic) :
    kept (ds.map (·.renumbered r)) = (kept ds).map (·.renumbered r) := by
  rw [kept, kept, List.filter_map, eraseDupsBy_map (sameReport_renumbered up)]
  simp only [Function.comp_def, outranked_renumbered up]

/-- Lines under other numbers, in the same order, show the same reports. -/
theorem reportable_renumbered (ds : List Diagnostic) :
    reportable (ds.map (·.renumbered r)) = (reportable ds).map (·.renumbered r) := by
  rw [reportable, reportable, kept_renumbered up]
  exact (List.map_mergeSort fun d _ e _ => (noLater_renumbered up d e).symm).symm

end Diagnostic

theorem Renumbering.strictMono_gapAt (k : Nat) : StrictMono (gapAt k).number := by
  intro a b less
  simp only [gapAt]
  split <;> split <;> omega

/-! ### Runs -/

/-- The second run is the first with an empty line in the role before the line with index `k`, and
with all that stands on that line or behind it one line further down. -/
structure Analysis.Spaced (k : Nat) (role : Category) (run run' : Analysis) : Prop where
  lines : run'.source.lines.toList = run.source.lines.toList.insertIdx k ⟨role, []⟩
  tokens : run'.tokens = run.tokens.map (·.renumbered (.gapAt k))
  units : run'.outline.units = run.outline.units.map (Outline.movedUnit (·.renumbered (.gapAt k)))
  tokenCount : run'.outline.tokenCount = run.outline.tokenCount
  reports : run'.reports = run.reports.map (·.renumbered (.gapAt k))
  shown : reportable run'.reports = (reportable run.reports).map (·.renumbered (.gapAt k))

/-- An empty line before some line of a source moves that line and all behind it one line down, and
changes nothing else in the run; the line itself is blank, or the body of the comment that is open
there. -/
theorem empty_line_moves_lines {settings : SourceSettings} {code : List Char} {loaded : Loaded} {k : Nat}
    (load : Source.ofText settings code = .ok loaded) (no_mark : code.head? ≠ some '\ufeff')
    (inside : k < loaded.source.lineCount) :
    Text.physicalLines (Text.withEmptyLine k code) = (Text.physicalLines code).insertIdx k [] ∧
      ∃ run, Analysis.ofText settings code = .ok run ∧
        ∀ code', Text.physicalLines code' = (Text.physicalLines code).insertIdx k [] →
          ∃ run', Analysis.ofText settings code' = .ok run' ∧
            run.Spaced k (Source.emptyLineRole
              (Source.openAfter none (Source.firstReadings settings.tabWidth code k))) run' := by
  have some_line : 0 < loaded.source.lineCount := Nat.zero_lt_of_lt inside
  have inText : k < (Text.physicalLines code).length := by
    obtain ⟨-, rfl⟩ := Source.ofText_eq_ok.mp load
    rwa [Source.lineCount_ofLines] at inside
  refine ⟨Text.physicalLines_withEmptyLine no_mark inText, _, Analysis.ofText_run load some_line, ?_⟩
  intro code' lines
  obtain ⟨spaced, load', sourceLines, width, lineReports⟩ := Source.ofText_gap load inside lines
  have gap : Source.HasGap k loaded.source spaced.source :=
    ⟨⟨_, Source.emptyLineRole_not_code _, sourceLines⟩, width, inside⟩
  have some_line' : 0 < spaced.source.lineCount := by
    rw [gap.lineCount]
    exact Nat.succ_pos _
  have reports : spaced.allReports = loaded.allReports.map (·.renumbered (.gapAt k)) := by
    rw [Loaded.allReports, Loaded.allReports, lineReports, gap.lexicalReports, gap.outlineReports,
      List.map_append, List.map_append]
  have shown : reportable spaced.allReports = (reportable loaded.allReports).map (·.renumbered (.gapAt k)) := by
    rw [reports, reportable_renumbered (Renumbering.strictMono_gapAt k)]
  exact ⟨_, Analysis.ofText_run load' some_line', sourceLines, gap.allTokens, gap.units, gap.tokenCount,
    reports, shown⟩

/-- The warning on the line behind the empty one moves with it; the error at the start of the comment
stays where it was. -/
theorem empty_line_moves_lines_in_comment :
    ∃ run run', Analysis.ofText {} "/*\n/*".toList = .ok run ∧
      Analysis.ofText {} "/*\n\n/*".toList = .ok run' ∧ run.Spaced 1 .blockCommentBody run' := by
  have load : Source.ofText {} "/*\n/*".toList = .ok
      ⟨⟨.ofList [⟨.blockCommentStart, "/*".toList⟩, ⟨.blockCommentBody, "/*".toList⟩], 1⟩,
        [Source.nestedWarning ⟨1, 2⟩ [], Source.unterminatedError ⟨1, 1⟩]⟩ := by
    decide +kernel
  obtain ⟨-, run, runs, behind⟩ := empty_line_moves_lines (k := 1) load (by decide) (by decide)
  obtain ⟨run', runs', spaced⟩ := behind "/*\n\n/*".toList (by decide +kernel)
  exact ⟨run, run', runs, runs', spaced⟩

end VhdlFrontEnd
