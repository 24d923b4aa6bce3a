import VhdlFrontEnd.Diagnostic.Render
import VhdlFrontEnd.Proofs.LineReports
import VhdlFrontEnd.Proofs.OutlineReports
import VhdlFrontEnd.Proofs.Run

/-!
# Every report points into the source

The reports of all three phases cover text on a line of the source; only the report that something
is missing at the end of the file covers none. `reports_in_source` concludes that every report
points at columns of a line, and that rendering it succeeds.
-/

namespace VhdlFrontEnd

/-! ### Reports and the columns of their lines -/

variable {w : Nat}

/-- The report points at columns of the line, or just past its end. -/
structure Diagnostic.PointsAt (w : Nat) (d : Diagnostic) (text : List Char) : Prop where
  first : 1 ≤ d.position.column
  last : d.span.endColumn ≤ Text.width w text + 1

theorem Diagnostic.Marks.pointsAt {texts : List (List Char)} {d : Diagnostic} {marked : List Char}
    (tab : 1 ≤ w) (marks : d.Marks w texts marked) :
    ∃ i text, texts[i]? = some text ∧ d.position.line = i + 1 ∧ d.PointsAt w text ∧
      (d.position.column = Text.width w text + 1 → marked = []) := by
  obtain ⟨i, before, after, here, position, length⟩ := marks
  have column := congrArg Position.column position
  have line := congrArg Position.line position
  simp only [Diagnostic.position, Text.columnAfter] at column line
  refine ⟨i, _, here, line, ⟨?_, ?_⟩, fun past => ?_⟩
  · simp only [Diagnostic.position, column]
    exact Nat.le_add_left 1 _
  · simp only [Span.endColumn, column, Text.width_append]
    omega
  · by_contra nonempty
    have := Located.width_pos tab nonempty
    simp only [Diagnostic.position, column, Text.width_append] at past
    omega

namespace Source

variable {s : Source}

/-- The physical lines. -/
def lineTexts (s : Source) : List (List Char) := s.lines.toList.map (·.text)

theorem getElem?_lineTexts_eq_some {i : Nat} {text : List Char} :
    s.lineTexts[i]? = some text ↔ ∃ line, s.lines.get? i = some line ∧ line.text = text := by
  rw [lineTexts, List.getElem?_map, ← Arena.get?_eq, Option.map_eq_some_iff]

theorem marks_of_lexicalReports {d : Diagnostic} (mem : d ∈ s.lexicalReports) :
    ∃ marked, marked ≠ [] ∧ d.Marks s.scanTabWidth s.lineTexts marked := by
  obtain ⟨l, scanned, given⟩ := List.mem_filterMap.mp mem
  obtain ⟨line, before, after, stands⟩ := stands_of_mem_scan scanned
  obtain ⟨_, -, -, -, span⟩ := Located.report?_eq_some given
  refine ⟨l.piece.text, stands.nonempty, l.start.line, before, after, ?_, ?_, ?_⟩
  · exact getElem?_lineTexts_eq_some.mpr ⟨line, stands.found, stands.text⟩
  · rw [Diagnostic.position, span, stands.position]
  · rw [span, stands.stop]
    exact Nat.le_of_eq (Nat.add_sub_cancel_left _ _)

theorem marks_of_about {t : Token} {d : Diagnostic} (mem : t ∈ s.scan.filterMap (·.token?))
    (about : Outline.About s t d) : s.spelling t ≠ [] ∧ d.Marks s.scanTabWidth s.lineTexts (s.spelling t) := by
  obtain ⟨l, line, before, after, -, given, stands⟩ := stands_of_token mem
  have spelled := Located.spelling_of_stands stands given
  obtain ⟨-, position, -⟩ := Located.token?_eq_some given
  refine ⟨by rw [spelled]; exact stands.nonempty, l.start.line, before, after, ?_, ?_, ?_⟩
  · rw [spelled]
    exact getElem?_lineTexts_eq_some.mpr ⟨line, stands.found, stands.text⟩
  · rw [Diagnostic.position, about.span, Outline.tokenSpan, position, stands.position]
  · rw [about.span]
    exact Text.length_le_width (Nat.le_max_right _ _) _

theorem marks_of_about_eof {d : Diagnostic} (nonempty : 0 < s.lineCount)
    (about : Outline.About s s.eofToken d) : d.Marks s.tabWidth s.lineTexts [] := by
  obtain ⟨-, spelled, last, between, position⟩ := eofToken_between nonempty
  refine ⟨s.eofToken.range.line, last.text, [], ?_, ?_, ?_⟩
  · exact getElem?_lineTexts_eq_some.mpr ⟨last, between.found, by simp⟩
  · rw [Diagnostic.position, about.span, Outline.tokenSpan, position]
  · rw [about.span, Outline.tokenSpan, spelled]
    exact Nat.zero_le _

theorem outlineReports_about (s : Source) : Outline.AreAbout s s.allTokens s.outlineReports :=
  Outline.parse_reports_about s ⟨s.eofToken, List.mem_append_right _ (List.mem_singleton_self _), rfl⟩

theorem marks_of_ofLines {texts : List (List Char)} {d : Diagnostic} (tab : 1 ≤ w)
    (mem : d ∈ (ofLines w texts).reports) : ∃ marked, marked ≠ [] ∧ d.Marks w texts marked := by
  rcases List.mem_append.mp mem with mem | mem
  · exact marks_of_readLines tab mem
  · obtain ⟨p, opened, rfl⟩ := Option.map_eq_some_iff.mp (Option.mem_toList.mp mem)
    exact ⟨['/', '*'], List.cons_ne_nil _ _, marks_of_unterminated tab opened⟩

/-- Every report of a run covers text on its line, but for the one about the end of the file. -/
theorem marks_of_ofText {settings : SourceSettings} {code : List Char} {loaded : Loaded} {d : Diagnostic}
    (load : ofText settings code = .ok loaded) (tab : 1 ≤ settings.tabWidth)
    (nonempty : 0 < loaded.source.lineCount)
    (mem : d ∈ loaded.allReports) :
    ∃ marked, d.Marks settings.tabWidth loaded.source.lineTexts marked ∧
      (marked = [] → d ∈ loaded.source.outlineReports ∧ d.fallback ∧
        d.position = loaded.source.eofToken.position) := by
  have width := tabWidth_ofText load
  have scan_width := scanTabWidth_ofText load tab
  rcases List.mem_append.mp mem with mem | mem
  · have covers : ∃ marked, marked ≠ [] ∧ d.Marks settings.tabWidth loaded.source.lineTexts marked := by
      rcases List.mem_append.mp mem with mem | mem
      · rw [lineTexts, texts_ofText load]
        obtain ⟨-, rfl⟩ := ofText_eq_ok.mp load
        exact marks_of_ofLines tab mem
      · rw [← scan_width]
        exact marks_of_lexicalReports mem
    obtain ⟨marked, nonempty, marks⟩ := covers
    exact ⟨marked, marks, fun empty => absurd empty nonempty⟩
  · obtain ⟨t, token, about⟩ := (outlineReports_about loaded.source).exists_token mem
    rcases List.mem_append.mp token with token | eof
    · obtain ⟨nonempty, marks⟩ := marks_of_about token about
      rw [scan_width] at marks
      exact ⟨_, marks, fun empty => absurd empty nonempty⟩
    · obtain rfl := List.mem_singleton.mp eof
      have marks := marks_of_about_eof nonempty about
      rw [width] at marks
      refine ⟨[], marks, fun _ => ⟨mem, ?_, ?_⟩⟩
      · rw [about.fallback]
        rfl
      · rw [Diagnostic.position, about.span]
        rfl

/-- Every report of a run points at a line, and past its columns only for what is missing at the end. -/
theorem points_of_ofText {settings : SourceSettings} {code : List Char} {loaded : Loaded} {d : Diagnostic}
    (load : ofText settings code = .ok loaded) (tab : 1 ≤ settings.tabWidth)
    (nonempty : 0 < loaded.source.lineCount) (mem : d ∈ loaded.allReports) :
    ∃ i line, loaded.source.lines.get? i = some line ∧ i < loaded.source.lineCount ∧
      d.position.line = i + 1 ∧ d.PointsAt settings.tabWidth line.text ∧
      (d.position.column = Text.width settings.tabWidth line.text + 1 →
        d ∈ loaded.source.outlineReports ∧ d.fallback ∧ d.position = loaded.source.eofToken.position) := by
  obtain ⟨marked, marks, at_end⟩ := marks_of_ofText load tab nonempty mem
  obtain ⟨i, text, here, line_number, inside, past⟩ := marks.pointsAt tab
  obtain ⟨line, found, rfl⟩ := getElem?_lineTexts_eq_some.mp here
  obtain ⟨bound, -⟩ := Array.getElem?_eq_some_iff.mp found
  exact ⟨i, line, found, bound, line_number, inside, fun column => at_end (past column)⟩

theorem line_of_ofText {settings : SourceSettings} {code : List Char} {loaded : Loaded} {d : Diagnostic}
    (load : ofText settings code = .ok loaded) (tab : 1 ≤ settings.tabWidth)
    (nonempty : 0 < loaded.source.lineCount) (mem : d ∈ loaded.allReports) :
    1 ≤ d.position.line ∧ d.position.line ≤ loaded.source.lineCount := by
  obtain ⟨i, _, -, bound, line, -⟩ := points_of_ofText load tab nonempty mem
  rw [line]
  exact ⟨Nat.le_add_left 1 i, bound⟩

end Source

/-- Every report of a run points at columns of a line of the source, and just past them only if the
outline reports that something is missing at the end of the file. So every report can be rendered. -/
theorem reports_in_source {settings : SourceSettings} {code : List Char} {loaded : Loaded}
    (load : Source.ofText settings code = .ok loaded) (tab : 1 ≤ settings.tabWidth)
    (nonempty : 0 < loaded.source.lineCount) :
    ∃ run, Analysis.ofText settings code = .ok run ∧
      (∀ d ∈ run.reports, 1 ≤ d.position.line ∧ d.position.line ≤ run.source.lineCount ∧
        ∃ line, run.source.lines.get? (d.position.line - 1) = some line ∧
          1 ≤ d.position.column ∧ d.span.endColumn ≤ Text.width settings.tabWidth line.text + 1 ∧
          (d.position.column = Text.width settings.tabWidth line.text + 1 →
            d ∈ (Outline.parse run.source run.tokens).2 ∧ d.fallback ∧
              d.position = run.source.eofToken.position)) ∧
      ∀ (renderer : Renderer) (file : String), ∀ d ∈ run.reports,
        ∃ text, renderer.render file run.source.texts d = .ok text := by
  refine ⟨_, Analysis.ofText_run load nonempty, ?_, ?_⟩
  · intro d mem
    obtain ⟨i, line, found, bound, line_number, inside, past⟩ := Source.points_of_ofText load tab nonempty mem
    rw [line_number]
    exact ⟨Nat.le_add_left 1 i, bound, line, found, inside.first, inside.last, past⟩
  · intro renderer file d mem
    obtain ⟨first, last⟩ := Source.line_of_ofText load tab nonempty mem
    have last : d.position.line ≤ loaded.source.texts.size := by
      rw [Source.texts, Array.size_map]
      exact last
    have rendered := renderer.render_isOk file loaded.source.texts d first last
    cases result : renderer.render file loaded.source.texts d with
    | ok text => exact ⟨text, rfl⟩
    | error fault => rw [result] at rendered; exact nomatch rendered

theorem reports_in_source_of_missing_name :
    ∃ loaded, Source.ofText { tabWidth := 4 } "\t? \"x\nuse".toList = .ok loaded ∧
      ∃ run, Analysis.ofText { tabWidth := 4 } "\t? \"x\nuse".toList = .ok run ∧
        (∀ d ∈ run.reports, 1 ≤ d.position.line ∧ d.position.line ≤ run.source.lineCount) ∧
        ∀ (renderer : Renderer) (file : String), ∀ d ∈ run.reports,
          ∃ text, renderer.render file run.source.texts d = .ok text := by
  have loads : Source.ofText { tabWidth := 4 } "\t? \"x\nuse".toList =
      .ok ⟨⟨.ofList [⟨.code, "\t? \"x".toList⟩, ⟨.code, "use".toList⟩], 4⟩, []⟩ := by
    decide +kernel
  obtain ⟨run, runs, places, rendered⟩ := reports_in_source loads (by decide) (by decide)
  exact ⟨_, loads, run, runs, fun d mem => ⟨(places d mem).1, (places d mem).2.1⟩, rendered⟩

end VhdlFrontEnd
