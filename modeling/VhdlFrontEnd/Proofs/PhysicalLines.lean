import VhdlFrontEnd.Proofs.Concatenation

/-!
# Line accounting

A text is loaded if all its physical lines are short enough, and then as just these lines. Lines are
read one at a time and no further than the first that is too long (`ofText_eq_foldlM`), and a carriage
return before a newline belongs to the line end (`lines_accounted`).
-/

namespace VhdlFrontEnd

/-! ### The physical lines of a text -/

namespace Text

/-- What stands in front of a line end, and the line that it holds: one carriage return at its end
belongs to the line end. -/
inductive HoldsLine : List Char → List Char → Prop where
  | whole {line} : line.getLast? ≠ some '\r' → HoldsLine line line
  | returned {line} : HoldsLine (line ++ ['\r']) line

/-- The text has these lines. Every newline ends one; behind the last newline stands another line,
unless nothing stands there. -/
inductive HasLines : List Char → List (List Char) → Prop where
  | nothing : HasLines [] []
  | last {piece line} : piece ≠ [] → '\n' ∉ piece → HoldsLine piece line → HasLines piece [line]
  | ended {piece line rest lines} : '\n' ∉ piece → HoldsLine piece line → HasLines rest lines →
      HasLines (piece ++ '\n' :: rest) (line :: lines)

variable {piece line cs : List Char} {lines : List (List Char)}

theorem holdsLine_dropReturn (piece : List Char) : HoldsLine piece (dropReturn piece) := by
  unfold dropReturn
  split
  · next ends =>
    obtain ⟨line, rfl⟩ := List.getLast?_eq_some_iff.mp ends
    rw [List.dropLast_concat]
    exact .returned
  · next no_end => exact .whole no_end

theorem HoldsLine.eq_dropReturn (holds : HoldsLine piece line) : line = dropReturn piece := by
  cases holds with
  | whole no_end => exact (if_neg no_end).symm
  | returned => rw [dropReturn, if_pos List.getLast?_concat, List.dropLast_concat]

theorem splitLines_of_no_newline (some_char : cs ≠ []) (no_newline : '\n' ∉ cs) : splitLines cs = [cs] := by
  rw [splitLines, List.splitOn_eq_singleton no_newline]
  exact if_neg (by simpa using some_char)

theorem splitLines_ended (no_newline : '\n' ∉ piece) (rest : List Char) :
    splitLines (piece ++ '\n' :: rest) = piece :: splitLines rest := by
  rw [splitLines_append, List.splitOn_eq_singleton no_newline]
  rfl

theorem HasLines.eq_splitLines (has : HasLines cs lines) : lines = (splitLines cs).map dropReturn := by
  induction has with
  | nothing => rfl
  | last some_char no_newline holds =>
    rw [splitLines_of_no_newline some_char no_newline, holds.eq_dropReturn]
    rfl
  | ended no_newline holds _ ih =>
    rw [splitLines_ended no_newline, List.map_cons, ← ih, holds.eq_dropReturn]

theorem hasLines_splitLines (cs : List Char) : HasLines cs ((splitLines cs).map dropReturn) := by
  by_cases newline : '\n' ∈ cs
  · obtain ⟨piece, rest, rfl, no_newline⟩ := List.eq_append_cons_of_mem newline
    rw [splitLines_ended no_newline]
    exact .ended no_newline (holdsLine_dropReturn piece) (hasLines_splitLines rest)
  · by_cases some_char : cs = []
    · rw [some_char]
      exact .nothing
    · rw [splitLines_of_no_newline some_char newline]
      exact .last some_char newline (holdsLine_dropReturn cs)
termination_by cs.length
decreasing_by simp_all; omega

theorem hasLines_iff : HasLines (dropMark cs) lines ↔ lines = physicalLines cs := by
  constructor
  · exact HasLines.eq_splitLines
  · rintro rfl
    exact hasLines_splitLines (dropMark cs)

/-- A text without line ends is its only line. -/
theorem physicalLines_of_line (some_char : cs ≠ []) (no_newline : '\n' ∉ cs)
    (no_return : cs.getLast? ≠ some '\r') (no_mark : cs.head? ≠ some '\ufeff') : physicalLines cs = [cs] := by
  rw [physicalLines, dropMark_of_head? no_mark, splitLines_of_no_newline some_char no_newline,
    List.map_singleton, dropReturn, if_neg no_return]

/-! ### Carriage returns before newlines -/

/-- The text with a carriage return before each chosen newline; newlines are counted from zero. -/
def withReturns (chosen : Nat → Bool) : List Char → List Char
  | [] => []
  | c :: cs =>
    if c = '\n' then
      (if chosen 0 then ['\r', '\n'] else ['\n']) ++ withReturns (fun k => chosen (k + 1)) cs
    else c :: withReturns chosen cs

variable {chosen : Nat → Bool}

theorem withReturns_cons_of_ne {c : Char} (other : c ≠ '\n') :
    withReturns chosen (c :: cs) = c :: withReturns chosen cs := by
  rw [withReturns, if_neg other]

theorem withReturns_append (no_newline : '\n' ∉ piece) (rest : List Char) :
    withReturns chosen (piece ++ rest) = piece ++ withReturns chosen rest := by
  induction piece with
  | nil => rfl
  | cons c piece ih =>
    rw [List.mem_cons, not_or] at no_newline
    obtain ⟨other, no_newline⟩ := no_newline
    rw [List.cons_append, List.cons_append, withReturns_cons_of_ne (Ne.symm other), ih no_newline]

theorem HoldsLine.eq_of_no_return (holds : HoldsLine piece line) (no_return : '\r' ∉ piece) :
    piece = line := by
  cases holds with
  | whole => rfl
  | returned => exact absurd List.mem_concat_self no_return

theorem HasLines.withReturns (has : HasLines cs lines) (no_return : '\r' ∉ cs) (chosen : Nat → Bool) :
    HasLines (withReturns chosen cs) lines := by
  induction has generalizing chosen with
  | nothing => exact .nothing
  | @last piece line some_char no_newline holds =>
    have unchanged : Text.withReturns chosen (piece ++ []) = piece ++ [] := withReturns_append no_newline []
    rw [List.append_nil] at unchanged
    rw [unchanged]
    exact .last some_char no_newline holds
  | @ended piece line rest lines no_newline holds _ ih =>
    rw [List.mem_append, List.mem_cons, not_or, not_or] at no_return
    obtain ⟨no_return, -, later⟩ := no_return
    rw [withReturns_append no_newline, Text.withReturns, if_pos rfl]
    split
    · -- The new carriage return belongs to the line end.
      obtain rfl := holds.eq_of_no_return no_return
      have longer : '\n' ∉ piece ++ ['\r'] := by simpa using no_newline
      have ended := HasLines.ended longer .returned (ih later fun k => chosen (k + 1))
      rwa [List.append_assoc] at ended
    · exact .ended no_newline holds (ih later _)

theorem dropMark_suffix (cs : List Char) : dropMark cs <:+ cs := by
  unfold dropMark
  split
  · exact List.suffix_cons _ _
  · exact List.suffix_rfl

theorem dropMark_withReturns (chosen : Nat → Bool) (cs : List Char) :
    dropMark (withReturns chosen cs) = withReturns chosen (dropMark cs) := by
  cases cs with
  | nil => rfl
  | cons c cs =>
    by_cases mark : c = '\ufeff'
    · subst mark
      rw [withReturns_cons_of_ne (by decide)]
      rfl
    · have no_mark : (c :: cs).head? ≠ some '\ufeff' := by simpa using mark
      rw [dropMark_of_head? no_mark, dropMark_of_head?]
      rw [withReturns]
      split
      · split <;> simp
      · exact no_mark

theorem physicalLines_withReturns (no_return : '\r' ∉ cs) (chosen : Nat → Bool) :
    physicalLines (withReturns chosen cs) = physicalLines cs := by
  have no_return : '\r' ∉ dropMark cs := fun mem => no_return ((dropMark_suffix cs).subset mem)
  have has := (hasLines_iff.mpr rfl).withReturns no_return chosen
  rw [← dropMark_withReturns] at has
  exact (hasLines_iff.mp has).symm

theorem length_le_byteLength (cs : List Char) : cs.length ≤ byteLength cs := by
  induction cs with
  | nil => exact Nat.le_refl 0
  | cons c cs ih =>
    have := c.utf8Size_pos
    rw [List.length_cons, byteLength_cons]
    omega

end Text

/-! ### Reading one line at a time -/

namespace Source

/-- The lines that were read so far, the opener of the comment that is open, and the reports. -/
structure Intake where
  lines : List Line
  open? : Option Position
  reports : List Diagnostic
deriving DecidableEq, Repr, Inhabited

namespace Intake

/-- Before the first line. -/
def start : Intake := ⟨[], none, []⟩

/-- One line more, unless it is too long. No line has more characters than bytes, so characters are
counted only where there are too many bytes. -/
def push (settings : SourceSettings) (r : Intake) (text : List Char) : Except LoadFault Intake :=
  let number := r.lines.length + 1
  if settings.maxLineLength < Text.byteLength text ∧ settings.maxLineLength < text.length then
    .error (.lineTooLong number text.length settings.maxLineLength)
  else
    let reading := readLine ⟨settings.tabWidth, number⟩ r.open? text
    .ok ⟨r.lines ++ [reading.line], reading.open?, r.reports ++ reading.reports⟩

/-- After the last line: a comment that is still open is reported. -/
def finish (settings : SourceSettings) (r : Intake) : Loaded :=
  { source := ⟨Arena.ofList r.lines, settings.tabWidth⟩
    reports := r.reports ++ (r.open?.map unterminatedError).toList }

variable {settings : SourceSettings} {r : Intake} {text : List Char} {texts : List (List Char)}

theorem push_of_long (long : settings.maxLineLength < text.length) : r.push settings text =
    .error (.lineTooLong (r.lines.length + 1) text.length settings.maxLineLength) :=
  if_pos ⟨Nat.lt_of_lt_of_le long (Text.length_le_byteLength text), long⟩

theorem push_of_short (short : text.length ≤ settings.maxLineLength) :
    r.push settings text = .ok
      { lines := r.lines ++ [(readLine ⟨settings.tabWidth, r.lines.length + 1⟩ r.open? text).line]
        open? := (readLine ⟨settings.tabWidth, r.lines.length + 1⟩ r.open? text).open?
        reports := r.reports ++ (readLine ⟨settings.tabWidth, r.lines.length + 1⟩ r.open? text).reports } :=
  if_neg fun long => Nat.not_lt_of_le short long.2

/-- Lines that are short enough are all read, each under the comment that is open before it. -/
theorem foldlM_of_short (short : ∀ text ∈ texts, text.length ≤ settings.maxLineLength) :
    texts.foldlM (push settings) r = .ok
      { lines := r.lines ++ (readLines settings.tabWidth (r.lines.length + 1) r.open? texts).map (·.line)
        open? := openAfter r.open? (readLines settings.tabWidth (r.lines.length + 1) r.open? texts)
        reports := r.reports ++
          (readLines settings.tabWidth (r.lines.length + 1) r.open? texts).flatMap (·.reports) } := by
  induction texts generalizing r with
  | nil => simp [readLines, openAfter, pure, Except.pure]
  | cons text texts ih =>
    obtain ⟨first, short⟩ := List.forall_mem_cons.mp short
    rw [List.foldlM_cons, push_of_short first]
    refine (ih short).trans ?_
    simp [readLines, openAfter_cons]

/-- The first line that is too long stops the reading, wherever the reading stands. -/
theorem foldlM_of_long {front back : List (List Char)}
    (short : ∀ text ∈ front, text.length ≤ settings.maxLineLength)
    (long : settings.maxLineLength < text.length) :
    (front ++ text :: back).foldlM (push settings) r =
      .error (.lineTooLong (r.lines.length + front.length + 1) text.length settings.maxLineLength) := by
  induction front generalizing r with
  | nil =>
    rw [List.nil_append, List.foldlM_cons, push_of_long long]
    rfl
  | cons first front ih =>
    obtain ⟨first_short, short⟩ := List.forall_mem_cons.mp short
    rw [List.cons_append, List.foldlM_cons, push_of_short first_short]
    refine (ih short).trans ?_
    rw [List.length_append, List.length_singleton, List.length_cons, Nat.add_assoc r.lines.length 1,
      Nat.add_comm 1]

end Intake

variable {settings : SourceSettings} {code : List Char} {limit : Nat} {texts : List (List Char)}
  {fault : LoadFault}

/-- The fault names the first line that is too long, by its number from one, and its characters. -/
inductive FirstOverlong (limit : Nat) : List (List Char) → LoadFault → Prop where
  | intro {front text back} : (∀ line ∈ front, line.length ≤ limit) → limit < text.length →
      FirstOverlong limit (front ++ text :: back) (.lineTooLong (front.length + 1) text.length limit)

theorem exists_firstOverlong (some_long : ¬ ∀ text ∈ texts, text.length ≤ limit) :
    ∃ fault, FirstOverlong limit texts fault := by
  induction texts with
  | nil => exact absurd (List.forall_mem_nil _) some_long
  | cons text texts ih =>
    by_cases first : text.length ≤ limit
    · obtain ⟨_, ⟨short, long⟩⟩ := ih fun short => some_long (List.forall_mem_cons.mpr ⟨first, short⟩)
      exact ⟨_, .intro (List.forall_mem_cons.mpr ⟨first, short⟩) long⟩
    · exact ⟨_, .intro (List.forall_mem_nil _) (Nat.lt_of_not_le first)⟩

theorem findSome?_overlong {front back : List (List Char)} {text : List Char}
    (short : ∀ line ∈ front, line.length ≤ limit) (long : limit < text.length) (n : Nat) :
    ((front ++ text :: back).zipIdx n).findSome? (fun (line, number) =>
      if limit < line.length then some (.lineTooLong number line.length limit) else none) =
      some (LoadFault.lineTooLong (n + front.length) text.length limit) := by
  induction front generalizing n with
  | nil => simp [long]
  | cons first front ih =>
    obtain ⟨first_short, short⟩ := List.forall_mem_cons.mp short
    rw [List.cons_append, List.zipIdx_cons, List.findSome?_cons_of_isNone (by simpa using first_short),
      ih short, List.length_cons, Nat.add_assoc, Nat.add_comm 1]

theorem FirstOverlong.overlong? (first : FirstOverlong limit texts fault) :
    Source.overlong? limit texts = some fault := by
  obtain ⟨short, long⟩ := first
  rw [Source.overlong?, findSome?_overlong short long, Nat.add_comm]

theorem overlong?_eq_some_iff : overlong? limit texts = some fault ↔ FirstOverlong limit texts fault := by
  refine ⟨fun found => ?_, FirstOverlong.overlong?⟩
  have long : ¬ ∀ text ∈ texts, text.length ≤ limit := by
    rw [← overlong?_eq_none_iff, found]
    exact Option.some_ne_none fault
  obtain ⟨first, here⟩ := exists_firstOverlong long
  rw [here.overlong?] at found
  obtain rfl := Option.some.inj found
  exact here

theorem ofText_eq_error_iff : ofText settings code = .error fault ↔
    FirstOverlong settings.maxLineLength (Text.physicalLines code) fault := by
  rw [← overlong?_eq_some_iff, ofText]
  cases overlong? settings.maxLineLength (Text.physicalLines code) <;> simp

/-- Loading reads one line after the other, and stops at the first that is too long. -/
theorem ofText_eq_foldlM (settings : SourceSettings) (code : List Char) :
    ofText settings code =
      ((Text.physicalLines code).foldlM (Intake.push settings) .start).map (Intake.finish settings) := by
  by_cases short : ∀ text ∈ Text.physicalLines code, text.length ≤ settings.maxLineLength
  · rw [Intake.foldlM_of_short short, ofText_eq_ok.mpr ⟨overlong?_eq_none_iff.mpr short, rfl⟩]
    rfl
  · obtain ⟨fault, first⟩ := exists_firstOverlong short
    rw [ofText_eq_error_iff.mpr first]
    generalize Text.physicalLines code = texts at first
    obtain ⟨short, long⟩ := first
    rw [Intake.foldlM_of_long short long, Intake.start, List.length_nil, Nat.zero_add]
    rfl

theorem ofText_congr {other : List Char} (same : Text.physicalLines other = Text.physicalLines code) :
    ofText settings other = ofText settings code := by
  rw [ofText, ofText, same]

end Source

/-- The physical lines of a text are what stands before its newlines and behind the last one, each without
a carriage return at its end. The text is loaded if none of them is too long, and then with just these
lines; otherwise the first that is too long is named. It does not matter whether newlines have a carriage
return before them. -/
theorem lines_accounted (settings : SourceSettings) (code : List Char) :
    (∀ lines, Text.HasLines (Text.dropMark code) lines ↔ lines = Text.physicalLines code) ∧
      ((∃ loaded, Source.ofText settings code = .ok loaded) ↔
        ∀ line ∈ Text.physicalLines code, line.length ≤ settings.maxLineLength) ∧
      (∀ loaded, Source.ofText settings code = .ok loaded →
        loaded.source.lines.toList.map (·.text) = Text.physicalLines code) ∧
      (∀ fault, Source.ofText settings code = .error fault ↔
        Source.FirstOverlong settings.maxLineLength (Text.physicalLines code) fault) ∧
      Source.ofText settings code = ((Text.physicalLines code).foldlM (Source.Intake.push settings) .start).map
        (Source.Intake.finish settings) ∧
      ('\r' ∉ code → ∀ chosen,
        Source.ofText settings (Text.withReturns chosen code) = Source.ofText settings code ∧
        Analysis.ofText settings (Text.withReturns chosen code) = Analysis.ofText settings code) := by
  refine ⟨fun lines => Text.hasLines_iff, ?_, fun loaded load => Source.texts_ofText load,
    fun fault => Source.ofText_eq_error_iff, Source.ofText_eq_foldlM settings code, fun no_return chosen => ?_⟩
  · rw [← Source.overlong?_eq_none_iff]
    constructor
    · rintro ⟨loaded, load⟩
      exact (Source.ofText_eq_ok.mp load).1
    · intro short
      exact ⟨_, Source.ofText_eq_ok.mpr ⟨short, rfl⟩⟩
  · have same : Source.ofText settings (Text.withReturns chosen code) = Source.ofText settings code :=
      Source.ofText_congr (Text.physicalLines_withReturns no_return chosen)
    refine ⟨same, ?_⟩
    rw [Analysis.ofText, Analysis.ofText, same]

/-- The second line has two characters in four bytes, and the third is too long inside an open comment. -/
theorem lines_accounted_in_comment :
    Source.ofText { maxLineLength := 2 } "/*\nüü\nlong\n*/".toList = .error (.lineTooLong 3 4 2) ∧
      ∃ loaded, Source.ofText { maxLineLength := 4 } "/*\nüü\nlong\n*/".toList = .ok loaded ∧
        loaded.source.lines.toList.map (·.text) = ["/*".toList, "üü".toList, "long".toList, "*/".toList] ∧
        Analysis.ofText { maxLineLength := 4 } "/*\nüü\r\nlong\n*/".toList =
          Analysis.ofText { maxLineLength := 4 } "/*\nüü\nlong\n*/".toList := by
  have lines : Text.physicalLines "/*\nüü\nlong\n*/".toList =
      ["/*".toList, "üü".toList] ++ "long".toList :: ["*/".toList] := by
    decide +kernel
  obtain ⟨-, -, -, stops, -⟩ := lines_accounted { maxLineLength := 2 } "/*\nüü\nlong\n*/".toList
  obtain ⟨-, loads, texts, -, -, returns⟩ := lines_accounted { maxLineLength := 4 } "/*\nüü\nlong\n*/".toList
  rw [lines] at stops loads texts
  obtain ⟨loaded, load⟩ := loads.mpr (by decide)
  have second := returns (by decide) (· == 1)
  exact ⟨(stops _).mpr (.intro (by decide) (by decide)), loaded, load, texts loaded load, second.2⟩

end VhdlFrontEnd
