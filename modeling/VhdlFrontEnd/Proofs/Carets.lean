import VhdlFrontEnd.Proofs.ReportPlaces

/-!
# Where the carets stand

A rendered report shows its line and, below it, a margin and the carets. The margin has a character
for each column before the report, while the line above has one for each character; so the carets
stand under the reported text exactly where no tab wider than one column stands before it
(`carets_aligned_iff`).
-/

namespace VhdlFrontEnd

namespace Text

/-- A text is longer on the screen by the columns that its tabs take beyond the first. -/
theorem width_eq {w : Nat} (tab : 1 ≤ w) (cs : List Char) :
    width w cs = cs.length + (w - 1) * cs.count '\t' := by
  induction cs with
  | nil => rfl
  | cons c cs ih =>
    rw [width_cons, List.length_cons, List.count_cons, ih, charWidth]
    by_cases isTab : c = '\t'
    · rw [if_pos isTab, if_pos (by simpa using isTab), Nat.mul_add, Nat.mul_one]
      omega
    · rw [if_neg isTab, if_neg (by simpa using isTab), Nat.add_zero (cs.count '\t')]
      omega

end Text

namespace Snippet

/-- A text with blanks for all its characters but the tabs: as wide as the text on every screen. -/
def blanked (cs : List Char) : List Char := cs.map fun c => if c = '\t' then '\t' else ' '

/-- The rows of a snippet: the line behind its number, and below it the margin and the carets. -/
def rows (number : Nat) (text margin carets : List Char) : String :=
  let shown := toString number
  gutter (max 3 shown.length) shown ++ String.ofList text ++ "\n" ++ gutter (max 3 shown.length) "" ++
    String.ofList margin ++ String.ofList carets

theorem length_blanked (cs : List Char) : (blanked cs).length = cs.length := List.length_map _

theorem indent_append (before after : List Char) (n : Nat) :
    indent (before ++ after) (before.length + n) = blanked before ++ indent after n := by
  have short : before.length + n - (before ++ after).length = n - after.length := by
    rw [List.length_append]
    omega
  rw [indent, indent, List.take_length_add_append, List.map_append, List.append_assoc, short]
  rfl

theorem length_indent (line : List Char) (columns : Nat) : (indent line columns).length = columns := by
  rw [indent, List.length_append, List.length_map, List.length_take, List.length_replicate]
  omega

theorem caret_not_mem_indent (line : List Char) (columns : Nat) : '^' ∉ indent line columns := by
  rw [indent, List.mem_append, not_or]
  constructor
  · rw [List.mem_map]
    rintro ⟨c, -, caret⟩
    split at caret <;> exact absurd caret (by decide)
  · intro caret
    exact absurd (List.eq_of_mem_replicate caret) (by decide)

theorem render_ofSpan (text : List Char) (span : Span) :
    (ofSpan (String.ofList text) span).render = rows span.start.line text
      (indent text (span.start.column - 1)) (List.replicate (max 1 span.length) '^') := by
  have marked : span.endColumn - span.start.column = span.length := Nat.add_sub_cancel_left _ _
  rw [render, rows, ofSpan]
  dsimp only
  rw [marked, String.toList_ofList]
  exact String.append_empty

end Snippet

theorem Renderer.render_of_line {renderer : Renderer} {lines : Array (List Char)} {text : List Char}
    {d : Diagnostic} (shows : renderer.snippets) (first : 1 ≤ d.position.line)
    (here : lines[d.position.line - 1]? = some text) (file : String) :
    renderer.render file lines d = .ok (renderer.header file d ++
      (Snippet.rows d.position.line text (Snippet.indent text (d.position.column - 1))
        (List.replicate (max 1 d.span.length) '^') ++ "\n") ++ attachments d) := by
  have placed : d.span ≠ Span.nowhere := by
    intro nowhere
    rw [Diagnostic.position, nowhere] at first
    exact absurd first (by decide)
  obtain ⟨n, line⟩ : ∃ n, d.span.start.line = n + 1 := ⟨d.span.start.line - 1, (Nat.sub_add_cancel first).symm⟩
  rw [Diagnostic.position, line, Nat.add_sub_cancel] at here
  have excerpt : renderer.excerpt lines d =
      .ok ((Snippet.ofSpan (String.ofList text) d.span).render ++ "\n") := by
    rw [Renderer.excerpt, if_pos (by simp [shows, placed]), line]
    dsimp only
    rw [here]
  rw [Renderer.render, excerpt, Snippet.render_ofSpan]
  rfl

/-! ### The margin of a report -/

/-- The report is about the line with the text, and stands just behind `front` on it. -/
structure Diagnostic.StandsBehind (w : Nat) (s : Source) (d : Diagnostic) (text front : List Char) : Prop where
  line : s.texts[d.position.line - 1]? = some text
  isFront : front <+: text
  column : d.position.column = Text.columnAfter w front

/-- Wherever the report is rendered with its line, the margin stands before its carets. -/
def Renderer.HasMargin (s : Source) (d : Diagnostic) (text margin : List Char) : Prop :=
  '^' ∉ margin ∧ ∀ (renderer : Renderer) (file : String), renderer.snippets →
    renderer.render file s.texts d = .ok (renderer.header file d ++
      (Snippet.rows d.position.line text margin (List.replicate (max 1 d.span.length) '^') ++ "\n") ++
      attachments d)

namespace Source

variable {settings : SourceSettings} {code : List Char} {loaded : Loaded} {d : Diagnostic}

theorem getElem?_texts (s : Source) (i : Nat) : s.texts[i]? = s.lineTexts[i]? := by
  rw [texts, lineTexts, Array.getElem?_map, List.getElem?_map, ← Arena.get?_eq]
  rfl

theorem standsBehind_of_ofText (load : ofText settings code = .ok loaded) (tab : 1 ≤ settings.tabWidth)
    (nonempty : 0 < loaded.source.lineCount) (mem : d ∈ loaded.allReports) :
    ∃ text front, d.StandsBehind settings.tabWidth loaded.source text front := by
  obtain ⟨marked, ⟨i, front, after, here, position, -⟩, -⟩ := marks_of_ofText load tab nonempty mem
  rw [List.append_assoc] at here
  refine ⟨_, front, ?_, List.prefix_append front (marked ++ after), ?_⟩
  · rw [getElem?_texts, position]
    exact here
  · rw [position]

end Source

/-- The carets of a report stand behind a margin as long as the text before the report and, for each
tab in it, `tabWidth - 1` characters longer. So they stand under the reported text exactly where a
tab is one column wide or none stands before the report. -/
theorem carets_aligned_iff {settings : SourceSettings} {code : List Char} {loaded : Loaded}
    (load : Source.ofText settings code = .ok loaded) (tab : 1 ≤ settings.tabWidth)
    (nonempty : 0 < loaded.source.lineCount) :
    ∃ run, Analysis.ofText settings code = .ok run ∧ ∀ d ∈ run.reports,
      (∃ text front, d.StandsBehind settings.tabWidth run.source text front) ∧
        ∀ text front, d.StandsBehind settings.tabWidth run.source text front →
          ∃ margin, Renderer.HasMargin run.source d text margin ∧
            margin.length = front.length + (settings.tabWidth - 1) * front.count '\t' ∧
            Snippet.blanked front <+: margin ∧
            (margin = Snippet.blanked front ↔ settings.tabWidth = 1 ∨ '\t' ∉ front) := by
  refine ⟨_, Analysis.ofText_run load nonempty, fun d mem => ⟨?_, ?_⟩⟩
  · exact Source.standsBehind_of_ofText load tab nonempty mem
  · rintro text front ⟨line, ⟨rest, rfl⟩, column⟩
    obtain ⟨first, -⟩ := Source.line_of_ofText load tab nonempty mem
    have columns : d.position.column - 1 = front.length + (settings.tabWidth - 1) * front.count '\t' := by
      rw [column, Text.columnAfter, Nat.add_sub_cancel, Text.width_eq tab]
    refine ⟨Snippet.indent (front ++ rest) (d.position.column - 1),
      ⟨Snippet.caret_not_mem_indent _ _, fun renderer file shows => ?_⟩, ?_, ?_, ?_⟩
    · exact Renderer.render_of_line shows first line file
    · rw [Snippet.length_indent, columns]
    · rw [columns, Snippet.indent_append]
      exact List.prefix_append _ _
    · -- The margin goes on behind the blanks for `front` by the columns that tabs take beyond the first.
      have exact_iff : Snippet.indent (front ++ rest) (d.position.column - 1) = Snippet.blanked front ↔
          (settings.tabWidth - 1) * front.count '\t' = 0 := by
        rw [columns, Snippet.indent_append, List.append_right_eq_self, ← List.length_eq_zero_iff,
          Snippet.length_indent]
      rw [exact_iff, Nat.mul_eq_zero, List.count_eq_zero]
      exact or_congr_left (by omega)

/-- Where tabs are one column wide, the caret stands under the character behind a tab. -/
theorem carets_aligned_behind_tab :
    ∃ run d, Analysis.ofText {} "\t$".toList = .ok run ∧ d ∈ run.reports ∧
      Renderer.HasMargin run.source d "\t$".toList ['\t'] := by
  have loads : Source.ofText {} "\t$".toList = .ok ⟨⟨.ofList [⟨.code, "\t$".toList⟩], 1⟩, []⟩ := by
    decide +kernel
  obtain ⟨run, runs, places⟩ := carets_aligned_iff loads (by decide) (by decide)
  obtain rfl := Except.ok.inj ((Analysis.ofText_run loads (by decide)).symm.trans runs)
  have reported : Diagnostic.error .unknownCharacter ⟨⟨1, 2⟩, 1⟩ "unknown character `$`" ∈
      (Loaded.mk ⟨.ofList [⟨.code, "\t$".toList⟩], 1⟩ []).allReports := by
    decide +kernel
  obtain ⟨margin, has, -, -, aligned⟩ := (places _ reported).2 "\t$".toList ['\t']
    ⟨by decide +kernel, by decide, by decide⟩
  obtain rfl := aligned.mpr (Or.inl rfl)
  exact ⟨_, _, runs, reported, has⟩

/-- Where tabs are four columns wide, it stands three characters further on. -/
theorem caret_not_under_character :
    ∃ run d, Analysis.ofText { tabWidth := 4 } "\t$".toList = .ok run ∧ d ∈ run.reports ∧
      d.StandsBehind 4 run.source "\t$".toList ['\t'] ∧
      Renderer.render {} "f" run.source.texts d =
        .ok "f:1:5: error[E1001]: unknown character `$`\n  1 | \t$\n    | \t   ^\n" ∧
      ¬ Renderer.HasMargin run.source d "\t$".toList (Snippet.blanked ['\t']) := by
  have loads : Source.ofText { tabWidth := 4 } "\t$".toList =
      .ok ⟨⟨.ofList [⟨.code, "\t$".toList⟩], 4⟩, []⟩ := by
    decide +kernel
  have rendered : Renderer.render {} "f" (Source.mk (.ofList [⟨.code, "\t$".toList⟩]) 4).texts
      (Diagnostic.error .unknownCharacter ⟨⟨1, 5⟩, 1⟩ "unknown character `$`") =
        .ok "f:1:5: error[E1001]: unknown character `$`\n  1 | \t$\n    | \t   ^\n" := by
    decide +kernel
  refine ⟨_, Diagnostic.error .unknownCharacter ⟨⟨1, 5⟩, 1⟩ "unknown character `$`",
    Analysis.ofText_run loads (by decide), by decide +kernel, ⟨by decide +kernel, by decide, by decide⟩,
    rendered, ?_⟩
  rintro ⟨-, aligned⟩
  have other := rendered.symm.trans (aligned {} "f" rfl)
  exact absurd other (by decide +kernel)

end VhdlFrontEnd
