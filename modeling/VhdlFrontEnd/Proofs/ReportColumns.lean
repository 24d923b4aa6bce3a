import VhdlFrontEnd.Proofs.Carets
import VhdlFrontEnd.Proofs.IgnoredText

/-!
# The columns of reports

A span counts columns. The reports of the tokenizer cover just the columns of their text, and so do those of an
opener; the reports of the outline and of ignored text count its characters instead. These differ where the text
holds a tab that is wider than one column (`spans_in_columns_iff`).
-/

namespace VhdlFrontEnd

/-- The report starts where the text `marked` stands, behind `before`, on the line. -/
structure Diagnostic.StartsAt (s : Source) (d : Diagnostic) (line : Line) (before marked : List Char) : Prop where
  found : ∃ i, s.lines.get? i = some line ∧ d.position = ⟨i + 1, Text.columnAfter s.tabWidth before⟩
  text : before ++ marked <+: line.text

/-- A text between blanks that neither starts nor ends with one. -/
structure Text.Trimmed (cs lead marked trail : List Char) : Prop where
  whole : cs = lead ++ marked ++ trail
  lead : ∀ c ∈ lead, isBlank c
  trail : ∀ c ∈ trail, isBlank c
  first : ∃ c ∈ marked.head?, ¬ isBlank c
  last : ∃ c ∈ marked.getLast?, ¬ isBlank c

/-- The text `marked` behind `before` is what the line holds behind its first closer, without the blanks around
it: up to the end of the line, or up to an opener that no closer on the line follows. -/
inductive Line.Ignores (line : Line) (before marked : List Char) : Prop
  | intro {front rest lead trail} : line.ClosesComment → line.behindCloser? = some rest → line.text = front ++ rest →
      Text.Trimmed (Source.region rest) lead marked trail → before = front ++ lead → Ignores line before marked

/-- What the report is about: a token or a text that is dropped, with its fault; an opener inside a comment, or of
one that is never closed; a token that the outline does not take; text that is ignored. The columns of the text
are counted in the first three cases, and its characters in the others. -/
inductive Diagnostic.IsAbout (s : Source) (d : Diagnostic) (line : Line) (before marked : List Char) :
    (inColumns : Bool) → Prop
  | piece {l} : l ∈ s.scan → l.report? = some d → l.piece.text = marked → IsAbout s d line before marked true
  | nested : d = Source.nestedWarning ⟨s.tabWidth, d.position.line⟩ before → marked = ['/', '*'] →
      IsAbout s d line before marked true
  | unterminated : d = Source.unterminatedError d.position → marked = ['/', '*'] →
      IsAbout s d line before marked true
  | token {t} : t ∈ s.allTokens → Outline.About s t d → s.spelling t = marked → IsAbout s d line before marked false
  | ignored : line.Ignores before marked → d = Source.trailingWarning ⟨s.tabWidth, d.position.line⟩ before marked →
      IsAbout s d line before marked false

/-- There is a text on a line that the report is about and starts at. -/
def Diagnostic.HasText (s : Source) (d : Diagnostic) : Prop :=
  ∃ line before marked inColumns, d.StartsAt s line before marked ∧ d.IsAbout s line before marked inColumns

namespace Source

variable {place : LinePlace} {open? : Option Position} {text front rest : List Char} {d : Diagnostic}

/-! ### Ignored text -/

theorem exists_trimEnd (cs : List Char) : ∃ trail, cs = trimEnd cs ++ trail ∧ (∀ c ∈ trail, Text.isBlank c) ∧
    ∀ c ∈ (trimEnd cs).getLast?, ¬ Text.isBlank c := by
  refine ⟨(cs.reverse.takeWhile Text.isBlank).reverse, ?_, fun c mem => ?_, fun c last => ?_⟩
  · rw [trimEnd, ← List.reverse_append, List.takeWhile_append_dropWhile, List.reverse_reverse]
  · exact List.all_eq_true.mp List.all_takeWhile c (List.mem_reverse.mp mem)
  · rw [trimEnd, List.getLast?_reverse] at last
    have ink := List.head?_dropWhile_not Text.isBlank cs.reverse
    rw [Option.mem_def.mp last] at ink
    simpa using ink

theorem trimmed_of_ne_nil {cs : List Char} (some_ink : trimEnd (cs.dropWhile Text.isBlank) ≠ []) :
    ∃ trail, Text.Trimmed cs (cs.takeWhile Text.isBlank) (trimEnd (cs.dropWhile Text.isBlank)) trail := by
  obtain ⟨trail, whole, blank, last⟩ := exists_trimEnd (cs.dropWhile Text.isBlank)
  obtain ⟨c, more, text⟩ := List.exists_cons_of_ne_nil some_ink
  have first := List.head?_dropWhile_not Text.isBlank cs
  rw [whole, text] at first
  refine ⟨trail, ?_, List.all_eq_true.mp List.all_takeWhile, blank, ⟨c, ?_, by simpa using first⟩, ?_⟩
  · rw [List.append_assoc, ← whole, List.takeWhile_append_dropWhile]
  · rw [text]
    exact rfl
  · exact ⟨_, List.getLast?_eq_some_getLast some_ink, last _ (List.getLast?_eq_some_getLast some_ink)⟩

theorem region_prefix (rest : List Char) : region rest <+: rest := by
  unfold region
  cases found : unclosedOpener? rest with
  | none => exact List.prefix_rfl
  | some front =>
    obtain ⟨body, rfl, -⟩ := unclosedOpener?_eq_some_iff.mp found
    exact List.prefix_append _ _

theorem trimmed_of_checkTrailing {cs : List Char} (mem : d ∈ checkTrailing place front cs) :
    ∃ lead marked trail, Text.Trimmed cs lead marked trail ∧ d = trailingWarning place (front ++ lead) marked := by
  unfold checkTrailing at mem
  dsimp only at mem
  split at mem
  · exact absurd mem List.not_mem_nil
  · next other =>
    have some_ink : trimEnd (cs.dropWhile Text.isBlank) ≠ [] := by
      intro nothing
      rw [nothing] at other
      exact other rfl
    obtain ⟨trail, trimmed⟩ := trimmed_of_ne_nil some_ink
    exact ⟨_, _, trail, trimmed, List.mem_singleton.mp mem⟩

/-! ### One line -/

theorem ignores_of_afterCloser {line : Line} (closes : line.ClosesComment) (behind : line.behindCloser? = some rest)
    (whole : line.text = front ++ rest) (mem : d ∈ (afterCloser place front rest).2) :
    ∃ before marked, line.Ignores before marked ∧ before ++ marked <+: line.text ∧
      d = trailingWarning place before marked := by
  rw [afterCloser_reports] at mem
  obtain ⟨lead, marked, trail, trimmed, rfl⟩ := trimmed_of_checkTrailing mem
  refine ⟨front ++ lead, marked, .intro closes behind whole trimmed rfl, ?_, rfl⟩
  obtain ⟨more, rest_eq⟩ := region_prefix rest
  rw [whole, ← rest_eq, trimmed.whole]
  exact ⟨trail ++ more, by simp⟩

theorem report_of_readFresh (mem : d ∈ (readFresh place text).reports) :
    ∃ before marked, (readFresh place text).line.Ignores before marked ∧ before ++ marked <+: text ∧
      d = trailingWarning place before marked := by
  have split := List.takeWhile_append_dropWhile (p := Text.isBlank) (l := text)
  by_cases starts : ['/', '*'] <+: text.dropWhile Text.isBlank
  · obtain ⟨body, start⟩ := exists_of_pair_prefix starts
    cases found : splitCloser? body with
    | none =>
      rw [readFresh_unclosed place start found] at mem
      exact absurd mem List.not_mem_nil
    | some cut =>
      obtain ⟨inside, rest⟩ := cut
      rw [readFresh_closed place start found] at mem ⊢
      refine ignores_of_afterCloser (Or.inr ⟨rfl, starts⟩) ?_ ?_ mem
      · rw [Line.behindCloser?, if_neg (by simp), start]
        exact congrArg _ found
      · rw [start, splitMark?_eq_some found] at split
        simpa using split.symm
  · rw [readFresh_of_no_comment place starts] at mem
    repeat' split at mem
    all_goals exact absurd mem List.not_mem_nil

theorem nested_of_checkNested {cs : List Char} (mem : d ∈ checkNested place cs) :
    ∃ front, front ++ ['/', '*'] <+: cs ∧ d = nestedWarning place front := by
  unfold checkNested at mem
  split at mem
  · next front back found =>
    refine ⟨front, ?_, List.mem_singleton.mp mem⟩
    rw [splitMark?_eq_some found]
    exact ⟨back, by simp⟩
  · exact absurd mem List.not_mem_nil

/-- A line is reported for an opener on it, or for text that it ignores. -/
theorem report_of_readLine (mem : d ∈ (readLine place open? text).reports) :
    (∃ front, front ++ ['/', '*'] <+: text ∧ d = nestedWarning place front) ∨
    ∃ before marked, (readLine place open? text).line.Ignores before marked ∧ before ++ marked <+: text ∧
      d = trailingWarning place before marked := by
  cases open? with
  | none => exact Or.inr (report_of_readFresh mem)
  | some start =>
    rw [readLine] at mem ⊢
    rw [readInside] at mem ⊢
    cases found : splitCloser? text with
    | none =>
      rw [found] at mem
      exact Or.inl (nested_of_checkNested mem)
    | some cut =>
      have whole : text = cut.1 ++ ['*', '/'] ++ cut.2 := by
        rw [splitMark?_eq_some found]
        simp
      rw [found] at mem
      rcases List.mem_append.mp mem with nested | trailing
      · obtain ⟨front, within, rfl⟩ := nested_of_checkNested nested
        refine Or.inl ⟨front, within.trans ?_, rfl⟩
        rw [whole, List.append_assoc]
        exact List.prefix_append _ _
      · refine Or.inr (ignores_of_afterCloser (Or.inl rfl) ?_ whole trailing)
        rw [Line.behindCloser?, if_pos rfl]
        exact congrArg _ found

/-! ### All reports -/

variable {settings : SourceSettings} {code : List Char} {loaded : Loaded}

theorem hasText_of_readLines {w : Nat} {texts : List (List Char)}
    (mem : d ∈ (readLines w 1 none texts).flatMap (·.reports)) : d.HasText (ofLines w texts).source := by
  obtain ⟨r, read, mem⟩ := List.mem_flatMap.mp mem
  obtain ⟨i, at_line⟩ := List.mem_iff_getElem?.mp read
  obtain ⟨text, -, same⟩ := getElem?_readLines at_line
  have here : (ofLines w texts).source.lines.get? i = some r.line := by
    rw [ofLines, Arena.get?_eq, Arena.toList_ofList, List.getElem?_map, at_line]
    rfl
  have line_text : r.line.text = text := by rw [same, text_readLine]
  rw [same] at mem
  rcases report_of_readLine mem with ⟨front, within, rfl⟩ | ⟨before, marked, ignores, within, rfl⟩
  · refine ⟨r.line, front, ['/', '*'], true, ⟨⟨i, here, ?_⟩, line_text ▸ within⟩, .nested rfl rfl⟩
    exact congrArg (Position.mk · _) (Nat.add_comm 1 i)
  · rw [← same] at ignores
    refine ⟨r.line, before, marked, false, ⟨⟨i, here, ?_⟩, line_text ▸ within⟩, .ignored ignores rfl⟩
    exact congrArg (Position.mk · _) (Nat.add_comm 1 i)

theorem hasText_of_unterminated {w : Nat} {texts : List (List Char)} {p : Position}
    (opened : openAfter none (readLines w 1 none texts) = some p) :
    (unterminatedError p).HasText (ofLines w texts).source := by
  rcases openAfter_readLines opened with before | ⟨i, text, here, front, back, rfl, rfl⟩
  · exact nomatch before
  · have texts_eq : (ofLines w texts).source.lineTexts = texts := texts_ofLines w texts
    obtain ⟨line, found, whole⟩ := getElem?_lineTexts_eq_some.mp (texts_eq ▸ here)
    refine ⟨line, front, ['/', '*'], true, ⟨⟨i, found, ?_⟩, ⟨back, by simp [whole]⟩⟩, .unterminated rfl rfl⟩
    exact congrArg (Position.mk · _) (Nat.add_comm 1 i)

theorem hasText_of_loaded (load : ofText settings code = .ok loaded) (mem : d ∈ loaded.reports) :
    d.HasText loaded.source := by
  obtain ⟨-, rfl⟩ := ofText_eq_ok.mp load
  rcases List.mem_append.mp mem with mem | mem
  · exact hasText_of_readLines mem
  · obtain ⟨p, opened, rfl⟩ := Option.map_eq_some_iff.mp (Option.mem_toList.mp mem)
    exact hasText_of_unterminated opened

theorem hasText_of_lexicalReports {s : Source} (width : s.scanTabWidth = s.tabWidth) (mem : d ∈ s.lexicalReports) :
    d.HasText s := by
  obtain ⟨l, scanned, given⟩ := List.mem_filterMap.mp mem
  obtain ⟨line, before, after, stands⟩ := stands_of_mem_scan scanned
  obtain ⟨_, -, -, -, span⟩ := Located.report?_eq_some given
  refine ⟨line, before, l.piece.text, true, ⟨⟨l.start.line, stands.found, ?_⟩, ?_⟩, .piece scanned given rfl⟩
  · rw [Diagnostic.position, span, stands.position, width]
  · exact ⟨after, stands.text.symm⟩

theorem hasText_of_outlineReports {s : Source} (width : s.scanTabWidth = s.tabWidth) (nonempty : 0 < s.lineCount)
    (mem : d ∈ s.outlineReports) : d.HasText s := by
  obtain ⟨t, token, about⟩ := (outlineReports_about s).exists_token mem
  have position : d.position = t.position := by
    rw [Diagnostic.position, about.span]
    rfl
  rcases List.mem_append.mp token with given | eof
  · obtain ⟨l, line, before, after, -, given, stands⟩ := stands_of_token given
    obtain ⟨-, start, -⟩ := Located.token?_eq_some given
    have between := stands.between given
    refine ⟨line, before, s.spelling t, false, ⟨⟨l.start.line, stands.found, ?_⟩, ?_⟩, .token token about rfl⟩
    · rw [position, start, stands.position, width]
    · exact ⟨after, between.text.symm⟩
  · obtain rfl := List.mem_singleton.mp eof
    obtain ⟨-, -, last, between, at_end⟩ := eofToken_between nonempty
    refine ⟨last, last.text, s.spelling s.eofToken, false, ⟨⟨_, between.found, ?_⟩, ?_⟩, .token token about rfl⟩
    · rw [position, at_end]
    · exact ⟨[], between.text.symm⟩

variable {settings : SourceSettings} {code : List Char} {loaded : Loaded}

theorem hasText_of_ofText (load : ofText settings code = .ok loaded) (tab : 1 ≤ settings.tabWidth)
    (nonempty : 0 < loaded.source.lineCount) (mem : d ∈ loaded.allReports) : d.HasText loaded.source := by
  have width : loaded.source.scanTabWidth = loaded.source.tabWidth := by
    rw [scanTabWidth_ofText load tab, tabWidth_ofText load]
  rcases List.mem_append.mp mem with mem | mem
  · rcases List.mem_append.mp mem with mem | mem
    · exact hasText_of_loaded load mem
    · exact hasText_of_lexicalReports width mem
  · exact hasText_of_outlineReports width nonempty mem

theorem length_of_isAbout {s : Source} {line : Line} {before marked : List Char} {inColumns : Bool}
    (width : s.scanTabWidth = s.tabWidth) (about : d.IsAbout s line before marked inColumns) :
    d.span.length = if inColumns then Text.width s.tabWidth marked else marked.length := by
  cases about with
  | @piece l scanned given text =>
    obtain ⟨_, _, _, stands⟩ := stands_of_mem_scan scanned
    obtain ⟨_, -, -, -, span⟩ := Located.report?_eq_some given
    rw [span, stands.stop, ← text, width]
    exact Nat.add_sub_cancel_left _ _
  | nested same text =>
    rw [same, text]
    rfl
  | unterminated same text =>
    rw [same, text]
    rfl
  | @token t token about text =>
    rw [about.span, ← text]
    rfl
  | ignored _ same =>
    rw [same]
    rfl

end Source

/-- Every report of a run starts at the first column of the text it is about. Its span ends with the last column of
the text if it is one of those that count columns; the others count characters, and end there only if a tab is one
column wide or there is none in the text. -/
theorem spans_in_columns_iff {settings : SourceSettings} {code : List Char} {loaded : Loaded}
    (load : Source.ofText settings code = .ok loaded) (tab : 1 ≤ settings.tabWidth)
    (nonempty : 0 < loaded.source.lineCount) :
    ∃ run, Analysis.ofText settings code = .ok run ∧ ∀ d ∈ run.reports, d.HasText run.source ∧
      ∀ line before marked inColumns, d.StartsAt run.source line before marked →
        d.IsAbout run.source line before marked inColumns →
          d.position.column = Text.columnAfter settings.tabWidth before ∧
          d.span.length = (if inColumns then Text.width settings.tabWidth marked else marked.length) ∧
          (d.span.endColumn = Text.columnAfter settings.tabWidth (before ++ marked) ↔
            inColumns ∨ settings.tabWidth = 1 ∨ '\t' ∉ marked) := by
  have width := Source.tabWidth_ofText load
  have scan_width := Source.scanTabWidth_ofText load tab
  refine ⟨_, Analysis.ofText_run load nonempty, fun d mem => ⟨?_, ?_⟩⟩
  · exact Source.hasText_of_ofText load tab nonempty mem
  · intro line before marked inColumns starts about
    obtain ⟨i, -, position⟩ := starts.found
    have column : d.span.start.column = Text.columnAfter settings.tabWidth before := by
      rw [← width]
      exact congrArg Position.column position
    have length := Source.length_of_isAbout (scan_width.trans width.symm) about
    rw [width] at length
    refine ⟨column, length, ?_⟩
    have ends_iff : d.span.endColumn = Text.columnAfter settings.tabWidth (before ++ marked) ↔
        d.span.length = Text.width settings.tabWidth marked := by
      rw [Span.endColumn, column, Text.columnAfter, Text.columnAfter, Text.width_append]
      omega
    rw [ends_iff, length]
    cases inColumns with
    | true => simp
    | false =>
      -- Characters are columns, but for what a tab is wider than one.
      have exact_iff : marked.length = Text.width settings.tabWidth marked ↔
          (settings.tabWidth - 1) * marked.count '\t' = 0 := by
        rw [Text.width_eq tab]
        omega
      rw [if_neg (by decide), exact_iff, Nat.mul_eq_zero, List.count_eq_zero]
      simp only [Bool.false_eq_true, false_or]
      exact or_congr_left (by omega)

/-- A string without its closing quote is covered with the tab in it. -/
theorem span_covers_tab :
    ∃ run d line, Analysis.ofText { tabWidth := 4 } "\"a\tb".toList = .ok run ∧ d ∈ run.reports ∧
      d.StartsAt run.source line [] "\"a\tb".toList ∧ d.IsAbout run.source line [] "\"a\tb".toList true ∧
      d.span.endColumn = Text.columnAfter 4 "\"a\tb".toList := by
  have loads : Source.ofText { tabWidth := 4 } "\"a\tb".toList =
      .ok ⟨⟨.ofList [⟨.code, "\"a\tb".toList⟩], 4⟩, []⟩ := by
    decide +kernel
  obtain ⟨run, runs, columns⟩ := spans_in_columns_iff loads (by decide) (by decide)
  obtain rfl := Except.ok.inj ((Analysis.ofText_run loads (by decide)).symm.trans runs)
  have scanned : (⟨⟨.lexeme (.faulty .string .unterminatedString), "\"a\tb".toList⟩, ⟨0, 0, 1⟩, ⟨0, 4, 8⟩⟩ : Located) ∈
      (Source.mk (.ofList [⟨.code, "\"a\tb".toList⟩]) 4).scan := by
    decide +kernel
  obtain ⟨d, given⟩ : ∃ d, Located.report? ⟨⟨.lexeme (.faulty .string .unterminatedString), "\"a\tb".toList⟩,
      ⟨0, 0, 1⟩, ⟨0, 4, 8⟩⟩ = some d := ⟨_, rfl⟩
  have reported : d ∈ (Loaded.mk ⟨.ofList [⟨.code, "\"a\tb".toList⟩], 4⟩ []).allReports :=
    List.mem_append_left _ (List.mem_append_right _ (List.mem_filterMap.mpr ⟨_, scanned, given⟩))
  have starts : d.StartsAt (.mk (.ofList [⟨.code, "\"a\tb".toList⟩]) 4) ⟨.code, "\"a\tb".toList⟩ []
      "\"a\tb".toList := by
    cases given
    exact ⟨⟨0, rfl, rfl⟩, List.prefix_rfl⟩
  have about : d.IsAbout (.mk (.ofList [⟨.code, "\"a\tb".toList⟩]) 4) ⟨.code, "\"a\tb".toList⟩ []
      "\"a\tb".toList true :=
    .piece scanned given rfl
  obtain ⟨-, -, ends⟩ := (columns d reported).2 _ _ _ _ starts about
  exact ⟨_, d, _, runs, reported, starts, about, ends.mpr (Or.inl rfl)⟩

/-- Of ignored text with a tab in it, the span misses three columns. -/
theorem span_short_of_tab :
    ∃ run d line, Analysis.ofText { tabWidth := 4 } "/* a */ b\tc".toList = .ok run ∧ d ∈ run.reports ∧
      d.StartsAt run.source line "/* a */ ".toList "b\tc".toList ∧
      d.IsAbout run.source line "/* a */ ".toList "b\tc".toList false ∧
      d.span.endColumn = 12 ∧ Text.columnAfter 4 "/* a */ b\tc".toList = 15 := by
  have loads : Source.ofText { tabWidth := 4 } "/* a */ b\tc".toList =
      .ok ⟨⟨.ofList [⟨.lineComment, "/* a */ b\tc".toList⟩], 4⟩,
        [Source.trailingWarning ⟨4, 1⟩ "/* a */ ".toList "b\tc".toList]⟩ := by
    decide +kernel
  have closes : (Line.mk .lineComment "/* a */ b\tc".toList).ClosesComment := Or.inr ⟨rfl, by decide +kernel⟩
  have behind : (Line.mk .lineComment "/* a */ b\tc".toList).behindCloser? = some " b\tc".toList := by decide +kernel
  have looked_at : Source.region " b\tc".toList = " b\tc".toList := by decide +kernel
  have trimmed : Text.Trimmed (Source.region " b\tc".toList) [' '] "b\tc".toList [] := by
    rw [looked_at]
    exact ⟨rfl, List.forall_mem_singleton.mpr rfl, List.forall_mem_nil _, ⟨'b', rfl, by decide⟩, ⟨'c', rfl, by decide⟩⟩
  have ignores : (Line.mk .lineComment "/* a */ b\tc".toList).Ignores "/* a */ ".toList "b\tc".toList :=
    .intro closes behind (by decide : _ = "/* a */".toList ++ _) trimmed (by decide)
  refine ⟨_, Source.trailingWarning ⟨4, 1⟩ "/* a */ ".toList "b\tc".toList, ⟨.lineComment, "/* a */ b\tc".toList⟩,
    Analysis.ofText_run loads (by decide), ?_, ⟨⟨0, rfl, rfl⟩, ?_⟩, .ignored ignores rfl, rfl, rfl⟩
  · exact List.mem_append_left _ (List.mem_append_left _ List.mem_cons_self)
  · exact ⟨[], by decide⟩

end VhdlFrontEnd
