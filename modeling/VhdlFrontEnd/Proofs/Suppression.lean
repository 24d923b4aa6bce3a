import VhdlFrontEnd.Proofs.ReportPlaces
import VhdlFrontEnd.Proofs.Shown
import VhdlFrontEnd.Proofs.TokenOrder

/-!
# A run shows all that it finds

The reports of a run differ in their positions or in their words, and a fallback stands only at the
end of the file, where no other report does. So `suppression_hides_nothing`: what a run shows is
all of its reports, sorted by position.
-/

namespace VhdlFrontEnd

open Diagnostic

/-! ### Words that tell the phases apart -/

/-- The messages of the warnings about single lines. -/
def Source.warningMessages : List String :=
  ["`/*` inside a block comment", "text after the end of a block comment is ignored"]

/-- The messages of the reports about lines. -/
def Source.lineMessages : List String := "unterminated block comment" :: warningMessages

/-- The words with which a lexical message starts. -/
def LexicalFault.openings : List String :=
  ["unknown character `", "unterminated string literal", "malformed number `",
    "integer literal cannot have a negative exponent", "based literal is missing its closing `#`",
    "base of `", "invalid identifier `", "unterminated bit-string literal", "invalid character `",
    "unterminated extended identifier", "extended identifier is empty"]

/-- The words with which a message of the outline starts. -/
def Outline.openings : List String := ["expected ", "unexpected "]

/-- The message starts with one of the openings. -/
def OpensWith (openings : List String) (message : String) : Prop :=
  ∃ opening ∈ openings, opening.toList <+: message.toList

theorem opensWith_append {openings : List String} {opening : String} (mem : opening ∈ openings)
    (words : String) : OpensWith openings (opening ++ words) := by
  refine ⟨opening, mem, words.toList, ?_⟩
  rw [String.toList_append]

theorem LexicalFault.message_opensWith (fault : LexicalFault) (text : List Char) :
    OpensWith openings (fault.message text) := by
  have whole (words : String) (mem : words ∈ openings) : OpensWith openings words :=
    ⟨words, mem, List.prefix_rfl⟩
  have framed {opening : String} (mem : opening ∈ openings) (words rest : String) :
      OpensWith openings (opening ++ words ++ rest) := by
    rw [String.append_assoc]
    exact opensWith_append mem _
  cases fault with
  | unknownCharacter c => exact framed (by simp [openings]) _ _
  | unterminatedString => exact whole "unterminated string literal" (by simp [openings])
  | malformedNumber => exact framed (by simp [openings]) _ _
  | negativeExponent =>
    exact whole "integer literal cannot have a negative exponent" (by simp [openings])
  | missingBaseMark => exact whole "based literal is missing its closing `#`" (by simp [openings])
  | baseOutOfRange => exact framed (by simp [openings]) _ _
  | invalidIdentifier problem => exact framed (by simp [openings]) _ _
  | unterminatedBitString => exact whole "unterminated bit-string literal" (by simp [openings])
  | bitStringCharacter c => exact framed (by simp [openings]) _ _
  | unterminatedExtended => exact whole "unterminated extended identifier" (by simp [openings])
  | emptyExtended => exact whole "extended identifier is empty" (by simp [openings])

theorem ne_of_opensWith {openings others : List String} {message other : String}
    (apart : ∀ x ∈ openings, ∀ y ∈ others, ¬ x.toList <+: y.toList ∧ ¬ y.toList <+: x.toList)
    (first : OpensWith openings message) (second : OpensWith others other) : message ≠ other := by
  rintro rfl
  obtain ⟨x, hx, starts⟩ := first
  obtain ⟨y, hy, begins⟩ := second
  rcases List.prefix_or_prefix_of_prefix starts begins with h | h
  · exact (apart x hx y hy).1 h
  · exact (apart x hx y hy).2 h

theorem lexical_apart_line : ∀ x ∈ LexicalFault.openings, ∀ y ∈ Source.lineMessages,
    ¬ x.toList <+: y.toList ∧ ¬ y.toList <+: x.toList := by
  decide +kernel

theorem outline_apart : ∀ x ∈ Outline.openings, ∀ y ∈ LexicalFault.openings ++ Source.lineMessages,
    ¬ x.toList <+: y.toList ∧ ¬ y.toList <+: x.toList := by
  decide +kernel

namespace Source

/-! ### Reports about lines -/

variable {w number : Nat} {open? : Option Position} {text : List Char} {texts : List (List Char)}

/-- The report warns of something on the line. -/
structure Warns (number : Nat) (d : Diagnostic) : Prop where
  line : d.position.line = number
  message : d.message ∈ warningMessages
  fallback : d.fallback = false

theorem reports_of_readAt {r : LineReading} (read : ReadAt ⟨w, number⟩ open? text r) :
    Distinct r.reports ∧ ∀ d ∈ r.reports, Warns number d := by
  have nested (front : List Char) : Warns number (nestedWarning ⟨w, number⟩ front) :=
    ⟨rfl, List.mem_cons_self, rfl⟩
  have trailing (before tail : List Char) : Warns number (trailingWarning ⟨w, number⟩ before tail) :=
    ⟨rfl, List.mem_cons_of_mem _ (List.mem_singleton_self _), rfl⟩
  obtain ⟨ns, ts, split, ns_at, ts_at⟩ := read.reports
  rw [split]
  rcases ns_at with rfl | ⟨front, _, -, rfl⟩ <;> rcases ts_at with rfl | ⟨before, tail, _, -, -, rfl⟩
  · exact ⟨.nil, List.forall_mem_nil _⟩
  · exact ⟨List.pairwise_singleton _ _, List.forall_mem_singleton.mpr (trailing before tail)⟩
  · exact ⟨List.pairwise_singleton _ _, List.forall_mem_singleton.mpr (nested front)⟩
  · refine ⟨List.pairwise_pair.mpr fun same => ?_, List.forall_mem_cons.mpr
      ⟨nested front, List.forall_mem_singleton.mpr (trailing before tail)⟩⟩
    have other : "`/*` inside a block comment" ≠ "text after the end of a block comment is ignored" := by
      decide
    exact absurd (sameReport_iff.mp same).2 other

theorem distinct_of_lines {ds es : List Diagnostic} (first : Distinct ds) (second : Distinct es)
    (apart : ∀ d ∈ ds, ∀ e ∈ es, d.position.line ≠ e.position.line) : Distinct (ds ++ es) :=
  List.pairwise_append.mpr ⟨first, second, fun d hd e he same =>
    apart d hd e he (congrArg Position.line (sameReport_iff.mp same).1)⟩

theorem reports_of_readLines (w number : Nat) (open? : Option Position) (texts : List (List Char)) :
    Distinct ((readLines w number open? texts).flatMap (·.reports)) ∧
      ∀ d ∈ (readLines w number open? texts).flatMap (·.reports), ∃ n, number ≤ n ∧ Warns n d := by
  induction texts generalizing number open? with
  | nil => exact ⟨.nil, List.forall_mem_nil _⟩
  | cons text texts ih =>
    obtain ⟨first, here⟩ := reports_of_readAt (readLine_at ⟨w, number⟩ open? text)
    obtain ⟨others, below⟩ := ih (number + 1) (readLine ⟨w, number⟩ open? text).open?
    rw [readLines, List.flatMap_cons]
    refine ⟨distinct_of_lines first others fun d hd e he => ?_, ?_⟩
    · obtain ⟨n, later, warns⟩ := below e he
      rw [(here d hd).line, warns.line]
      omega
    · intro d mem
      rcases List.mem_append.mp mem with mem | mem
      · exact ⟨number, Nat.le_refl _, here d mem⟩
      · obtain ⟨n, later, warns⟩ := below d mem
        exact ⟨n, Nat.le_of_succ_le later, warns⟩

theorem reports_of_ofLines (w : Nat) (texts : List (List Char)) : Distinct (ofLines w texts).reports ∧
    ∀ d ∈ (ofLines w texts).reports, d.message ∈ lineMessages ∧ d.fallback = false := by
  obtain ⟨distinct, warns⟩ := reports_of_readLines w 1 none texts
  rw [ofLines]
  dsimp only
  cases openAfter none (readLines w 1 none texts) with
  | none =>
    rw [Option.map_none, Option.toList_none, List.append_nil]
    refine ⟨distinct, fun d mem => ?_⟩
    obtain ⟨_, -, warning⟩ := warns d mem
    exact ⟨List.mem_cons_of_mem _ warning.message, warning.fallback⟩
  | some p =>
    rw [Option.map_some, Option.toList_some]
    refine ⟨List.pairwise_append.mpr ⟨distinct, List.pairwise_singleton _ _, ?_⟩, ?_⟩
    · intro d mem e last same
      obtain ⟨_, -, warning⟩ := warns d mem
      rw [List.mem_singleton.mp last] at same
      have message := warning.message
      rw [(sameReport_iff.mp same).2] at message
      exact absurd message (by decide : "unterminated block comment" ∉ warningMessages)
    · intro d mem
      rcases List.mem_append.mp mem with mem | last
      · obtain ⟨_, -, warning⟩ := warns d mem
        exact ⟨List.mem_cons_of_mem _ warning.message, warning.fallback⟩
      · rw [List.mem_singleton.mp last]
        exact ⟨List.mem_cons_self, rfl⟩

/-! ### Reports about pieces and tokens -/

variable {s : Source}

theorem distinct_of_ordered {ds : List Diagnostic}
    (ordered : ds.Pairwise fun d e => d.position.compare e.position = .lt) : Distinct ds := by
  refine ordered.imp fun before same => ?_
  rw [(sameReport_iff.mp same).1, Position.compare_eq_lt_iff] at before
  omega

theorem distinct_of_messages {ds es : List Diagnostic} (first : Distinct ds) (second : Distinct es)
    (apart : ∀ d ∈ ds, ∀ e ∈ es, d.message ≠ e.message) : Distinct (ds ++ es) :=
  List.pairwise_append.mpr ⟨first, second, fun d hd e he same =>
    apart d hd e he (sameReport_iff.mp same).2⟩

theorem words_of_lexicalReports {d : Diagnostic} (mem : d ∈ s.lexicalReports) :
    OpensWith LexicalFault.openings d.message ∧ d.fallback = false := by
  obtain ⟨l, -, given⟩ := List.mem_filterMap.mp mem
  obtain ⟨fault, -, rfl⟩ := Option.map_eq_some_iff.mp given
  exact ⟨fault.message_opensWith l.piece.text, rfl⟩

theorem words_of_about {t : Token} {d : Diagnostic} (about : Outline.About s t d) :
    OpensWith Outline.openings d.message := by
  obtain ⟨words, missing | unexpected⟩ := about.message
  · rw [missing]
    exact opensWith_append List.mem_cons_self words
  · rw [unexpected]
    exact opensWith_append (List.mem_cons_of_mem _ (List.mem_singleton_self _)) words

theorem allTokens_ordered (nonempty : 0 < s.lineCount) (tab : s.scanTabWidth = s.tabWidth) :
    s.allTokens.Pairwise fun t u => t.position.compare u.position = .lt := by
  refine List.pairwise_append.mpr ⟨s.scan_follows.imp fun follows => follows.position,
    List.pairwise_singleton _ _, fun t mem u last => ?_⟩
  rw [List.mem_singleton.mp last]
  exact (eof_follows nonempty tab mem).position

theorem outlineReports_ordered (nonempty : 0 < s.lineCount) (tab : s.scanTabWidth = s.tabWidth) :
    s.outlineReports.Pairwise fun d e => d.position.compare e.position = .lt := by
  refine (outlineReports_about s).pairwise (allTokens_ordered nonempty tab) fun before first second => ?_
  rw [Diagnostic.position, Diagnostic.position, first.span, second.span]
  exact before

/-! ### All reports -/

variable {settings : SourceSettings} {code : List Char} {loaded : Loaded}

theorem words_of_ofText (load : ofText settings code = .ok loaded) :
    Distinct loaded.reports ∧ ∀ d ∈ loaded.reports, d.message ∈ lineMessages ∧ d.fallback = false := by
  obtain ⟨-, rfl⟩ := ofText_eq_ok.mp load
  exact reports_of_ofLines settings.tabWidth _

theorem distinct_allReports (load : ofText settings code = .ok loaded) (tab : 1 ≤ settings.tabWidth)
    (nonempty : 0 < loaded.source.lineCount) : Distinct loaded.allReports := by
  obtain ⟨lines, line_words⟩ := words_of_ofText load
  have width := (scanTabWidth_ofText load tab).trans (tabWidth_ofText load).symm
  have itself {d : Diagnostic} (mem : d ∈ loaded.reports) : OpensWith lineMessages d.message :=
    ⟨d.message, (line_words d mem).1, List.prefix_rfl⟩
  have lexed : Distinct (loaded.reports ++ loaded.source.lexicalReports) :=
    distinct_of_messages lines (distinct_of_ordered loaded.source.reports_ordered) fun d hd e he same =>
      ne_of_opensWith lexical_apart_line (words_of_lexicalReports he).1 (itself hd) same.symm
  refine distinct_of_messages lexed (distinct_of_ordered (outlineReports_ordered nonempty width))
    fun d hd e he same => ?_
  obtain ⟨t, -, about⟩ := (outlineReports_about loaded.source).exists_token he
  refine ne_of_opensWith outline_apart (words_of_about about) ?_ same.symm
  rcases List.mem_append.mp hd with hd | hd
  · obtain ⟨opening, mem, starts⟩ := itself hd
    exact ⟨opening, List.mem_append_right _ mem, starts⟩
  · obtain ⟨opening, mem, starts⟩ := (words_of_lexicalReports hd).1
    exact ⟨opening, List.mem_append_left _ mem, starts⟩

/-- At the end of the file stands nothing but a fallback. -/
theorem position_ne_eof {d : Diagnostic} (load : ofText settings code = .ok loaded)
    (tab : 1 ≤ settings.tabWidth) (nonempty : 0 < loaded.source.lineCount) (mem : d ∈ loaded.allReports)
    (no_fallback : ¬ d.fallback) : d.position ≠ loaded.source.eofToken.position := by
  intro at_end
  obtain ⟨i, line, found, -, line_number, -, past⟩ := points_of_ofText load tab nonempty mem
  obtain ⟨last, last_found, eof⟩ := eofToken_eq nonempty
  rw [at_end, eof] at line_number past
  obtain rfl : i = loaded.source.lineCount - 1 := (Nat.succ.inj line_number).symm
  obtain rfl := Option.some.inj (found.symm.trans last_found)
  rw [tabWidth_ofText load] at past
  exact no_fallback (past rfl).2.1

/-- The reports of a run are none that give way to others and, last, at most one that would. -/
theorem exists_fallback (load : ofText settings code = .ok loaded) (tab : 1 ≤ settings.tabWidth)
    (nonempty : 0 < loaded.source.lineCount) :
    ∃ front fallback?, loaded.allReports = front ++ Option.toList fallback? ∧
      (∀ d ∈ front, ¬ d.fallback ∧ d.position ≠ loaded.source.eofToken.position) ∧
      ∀ d ∈ fallback?, d.fallback ∧ d.position = loaded.source.eofToken.position ∧
        loaded.source.outlineReports.getLast? = some d := by
  obtain ⟨front, fallback?, split, clear, last⟩ := (outlineReports_about loaded.source).exists_fallback
    (fun t mem => (placed_of_scan mem).1) rfl
  have whole : loaded.allReports =
      (loaded.reports ++ loaded.source.lexicalReports ++ front) ++ fallback?.toList := by
    rw [Loaded.allReports, split, List.append_assoc _ front]
  refine ⟨_, fallback?, whole, fun d mem => ?_, fun d mem => ?_⟩
  · have no_fallback : ¬ d.fallback := by
      rw [Bool.not_eq_true]
      rcases List.mem_append.mp mem with mem | mem
      · rcases List.mem_append.mp mem with mem | mem
        · exact ((words_of_ofText load).2 d mem).2
        · exact (words_of_lexicalReports mem).2
      · exact clear d mem
    exact ⟨no_fallback, position_ne_eof load tab nonempty
      (whole ▸ List.mem_append_left _ mem) no_fallback⟩
  · obtain ⟨fallback, about⟩ := last d mem
    refine ⟨fallback, ?_, ?_⟩
    · rw [Diagnostic.position, about.span]
      rfl
    · rw [split, Option.mem_def.mp mem]
      exact List.getLast?_concat

theorem noneOutranked_allReports (load : ofText settings code = .ok loaded) (tab : 1 ≤ settings.tabWidth)
    (nonempty : 0 < loaded.source.lineCount) : NoneOutranked loaded.allReports := by
  obtain ⟨front, fallback?, split, clear, last⟩ := exists_fallback load tab nonempty
  intro d hd fallback e he no_fallback
  rw [split] at hd
  rcases List.mem_append.mp hd with inner | hd
  · exact absurd fallback (clear d inner).1
  · rw [(last d (Option.mem_toList.mp hd)).2.1]
    exact (position_ne_eof load tab nonempty he no_fallback).symm

theorem stablySorted_allReports (load : ofText settings code = .ok loaded) (tab : 1 ≤ settings.tabWidth)
    (nonempty : 0 < loaded.source.lineCount) :
    StablySorted loaded.allReports (reportable loaded.allReports) :=
  reportable_stablySorted (distinct_allReports load tab nonempty)
    (noneOutranked_allReports load tab nonempty)

end Source

/-- Nothing that a run finds is suppressed. Its reports differ from each other; at most the last of
the outline is a fallback, at the end of the file, where no other report stands; and what is shown
is all of them, by position. So the errors that are shown are all errors. -/
theorem suppression_hides_nothing {settings : SourceSettings} {code : List Char} {loaded : Loaded}
    (load : Source.ofText settings code = .ok loaded) (tab : 1 ≤ settings.tabWidth)
    (nonempty : 0 < loaded.source.lineCount) :
    ∃ run, Analysis.ofText settings code = .ok run ∧
      run.reports = loaded.reports ++ loaded.source.lexicalReports ++
        (Outline.parse run.source run.tokens).2 ∧
      run.reports.Pairwise (fun d e => ¬ (d.position = e.position ∧ d.message = e.message)) ∧
      (∃ front fallback?, run.reports = front ++ Option.toList fallback? ∧
        (∀ d ∈ front, ¬ d.fallback ∧ d.position ≠ run.source.eofToken.position) ∧
        ∀ d ∈ fallback?, d.fallback ∧ d.position = run.source.eofToken.position ∧
          (Outline.parse run.source run.tokens).2.getLast? = some d) ∧
      StablySorted run.reports (reportable run.reports) ∧
      run.errorCount = Diagnostic.errorCount run.reports ∧
      (run.hasErrors ↔ ∃ d ∈ run.reports, d.level.isError) := by
  have distinct := Source.distinct_allReports load tab nonempty
  have shown := Source.stablySorted_allReports load tab nonempty
  have errors : reportableErrors loaded.allReports = Diagnostic.errorCount loaded.allReports :=
    shown.perm.countP_eq _
  refine ⟨_, Analysis.ofText_run load nonempty, rfl, ?_, Source.exists_fallback load tab nonempty,
    shown, errors, ?_⟩
  · exact distinct.imp fun differ same => differ (sameReport_iff.mpr same)
  · rw [Lexed.hasErrors, Lexed.errorCount, errors, bne_iff_ne, ← Nat.pos_iff_ne_zero,
      ← hasErrors_iff_errorCount_pos, Diagnostic.hasErrors, List.any_eq_true]

theorem suppression_hides_nothing_of_missing_name :
    ∃ loaded, Source.ofText {} "a */ \"b\nuse".toList = .ok loaded ∧
      ∃ run, Analysis.ofText {} "a */ \"b\nuse".toList = .ok run ∧
        StablySorted run.reports (reportable run.reports) ∧
        run.errorCount = Diagnostic.errorCount run.reports ∧
        (run.hasErrors ↔ ∃ d ∈ run.reports, d.level.isError) := by
  have loads : Source.ofText {} "a */ \"b\nuse".toList =
      .ok ⟨⟨.ofList [⟨.code, "a */ \"b".toList⟩, ⟨.code, "use".toList⟩], 1⟩, []⟩ := by
    decide +kernel
  obtain ⟨run, runs, -, -, -, shown, count, errors⟩ :=
    suppression_hides_nothing loads (by decide) (by decide)
  exact ⟨_, loads, run, runs, shown, count, errors⟩

end VhdlFrontEnd
