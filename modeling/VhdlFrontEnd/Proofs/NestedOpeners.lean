import VhdlFrontEnd.Proofs.IgnoredText
import VhdlFrontEnd.Proofs.Region

/-!
# Openers inside a comment

Comments do not nest, and a run warns of the first opener on each line inside a comment. It does not look for one
on the line where a comment opens that goes on below: `nested_openers_warned_iff` says on which lines the
warning is missing.
-/

namespace VhdlFrontEnd

/-- The report warns of an opener inside a comment. -/
def Diagnostic.warnsOfOpener (d : Diagnostic) : Bool := d.code? == some .nestedComment

/-- The report starts at a column of the text `inside` behind `before`. -/
def Diagnostic.startsIn (w : Nat) (before inside : List Char) (d : Diagnostic) : Bool :=
  Text.columnAfter w before ≤ d.position.column && d.position.column < Text.columnAfter w (before ++ inside)

/-- The warnings of a run of openers in the text `inside`, which stands behind `before` on the line with
index `i`. -/
def Loaded.openerWarnings (loaded : Loaded) (i : Nat) (before inside : List Char) : List Diagnostic :=
  loaded.allReports.filter fun d =>
    (d.startsIn loaded.source.tabWidth before inside && d.warnsOfOpener) && d.position.line == i + 1

/-- The line with index `i` holds the text `inside`, behind `before`, of a comment that takes more than one line:
what stands behind the opener on the line where the comment opens, what stands before the first closer on the
line where it closes, and between these the whole line. -/
inductive Loaded.HoldsComment (loaded : Loaded) (code : List Char) (i : Nat) :
    (opening : Bool) → (before inside : List Char) → Prop
  | opening {line front inside} : loaded.source.lines.get? i = some line → i + 1 < loaded.source.lineCount →
      line.text = front ++ '/' :: '*' :: inside →
      Source.openAfter none (Source.firstReadings loaded.source.tabWidth code (i + 1)) =
        some ⟨i + 1, Text.columnAfter loaded.source.tabWidth front⟩ →
      HoldsComment loaded code i true (front ++ ['/', '*']) inside
  | body {line} : loaded.source.lines.get? i = some line → line.category = .blockCommentBody →
      HoldsComment loaded code i false [] line.text
  | closing {line inside rest} : loaded.source.lines.get? i = some line → line.category = .blockCommentEnd →
      line.text = inside ++ '*' :: '/' :: rest → ¬ ['*', '/'] <:+: inside ++ ['*'] →
      HoldsComment loaded code i false [] inside

/-- The reports warn of the first opener in the text `inside` behind `before`, if there is one, and of nothing
else. -/
inductive WarnsOfFirst (place : Source.LinePlace) (before inside : List Char) : List Diagnostic → Prop
  | first {front back} : inside = front ++ '/' :: '*' :: back → ¬ ['/', '*'] <:+: front ++ ['/'] →
      WarnsOfFirst place before inside [Source.nestedWarning place (before ++ front)]
  | none : ¬ ['/', '*'] <:+: inside → WarnsOfFirst place before inside []

theorem warnsOfFirst_nil_iff {place : Source.LinePlace} {before inside : List Char} :
    WarnsOfFirst place before inside [] ↔ ¬ ['/', '*'] <:+: inside := by
  constructor
  · intro warns
    cases warns with
    | none absent => exact absent
  · exact .none

namespace Source

variable {place : LinePlace} {open? : Option Position} {start p : Position} {text inside rest front : List Char}
  {d : Diagnostic}

/-! ### One line -/

theorem checkNested_warnsOfFirst (place : LinePlace) (inside : List Char) :
    WarnsOfFirst place [] inside (checkNested place inside) := by
  unfold checkNested
  cases found : splitOpener? inside with
  | none => exact .none (splitMark?_eq_none_iff.mp found)
  | some split =>
    obtain ⟨whole, first⟩ := splitMark?_eq_some_iff.mp found
    exact .first whole first

/-- What is warned of in a text starts in it. -/
theorem column_of_checkNested (mem : d ∈ checkNested place inside) :
    d.warnsOfOpener ∧ 1 ≤ d.position.column ∧ d.position.column < Text.columnAfter place.tabWidth inside := by
  unfold checkNested at mem
  split at mem
  · next front back found =>
    rw [List.mem_singleton.mp mem, splitMark?_eq_some found]
    refine ⟨rfl, Nat.le_add_left 1 _, ?_⟩
    have mark : Text.charWidth place.tabWidth '/' = 1 := rfl
    change Text.columnAfter place.tabWidth front < _
    rw [Text.columnAfter, Text.columnAfter, Text.width_append, Text.width_cons, mark]
    omega
  · exact absurd mem List.not_mem_nil

theorem filter_startsIn_checkNested (place : LinePlace) (inside : List Char) :
    (checkNested place inside).filter (·.startsIn place.tabWidth [] inside) = checkNested place inside := by
  refine List.filter_eq_self.mpr fun d mem => ?_
  obtain ⟨-, first, last⟩ := column_of_checkNested mem
  exact Bool.and_eq_true_iff.mpr ⟨decide_eq_true first, decide_eq_true last⟩

theorem openers_checkNested (place : LinePlace) (inside : List Char) :
    (checkNested place inside).filter (·.warnsOfOpener) = checkNested place inside :=
  List.filter_eq_self.mpr fun _ mem => (column_of_checkNested mem).1

theorem openers_afterCloser (place : LinePlace) (before rest : List Char) :
    (afterCloser place before rest).2.filter (·.warnsOfOpener) = [] := by
  rw [afterCloser_reports, checkTrailing]
  split <;> rfl

/-- Where no comment is open before the line, no opener is inside one. -/
theorem openers_readFresh (place : LinePlace) (text : List Char) :
    (readFresh place text).reports.filter (·.warnsOfOpener) = [] := by
  unfold readFresh
  dsimp only
  split
  · rfl
  · rfl
  · split
    · exact openers_afterCloser place _ _
    · rfl
  · rfl

theorem openers_readInside_of_closer (start : Position) (closes : splitCloser? text = some (inside, rest)) :
    (readInside place start text).reports.filter (·.warnsOfOpener) = checkNested place inside := by
  rw [readInside, closes]
  dsimp only
  rw [List.filter_append, openers_checkNested, openers_afterCloser, List.append_nil]

theorem openers_readInside_of_body (start : Position) (unclosed : splitCloser? text = none) :
    (readInside place start text).reports.filter (·.warnsOfOpener) = checkNested place text := by
  rw [readInside, unclosed]
  exact openers_checkNested place text

/-- An opener behind a closer stands further on than all that is warned of before the closer. -/
theorem columnAfter_le_of_afterCloser (opened : p ∈ (afterCloser place (inside ++ ['*', '/']) rest).1) :
    Text.columnAfter place.tabWidth inside ≤ p.column := by
  unfold afterCloser at opened
  cases found : unclosedOpener? rest with
  | none =>
    rw [found] at opened
    cases opened
  | some front =>
    rw [found] at opened
    cases opened
    change _ ≤ Text.columnAfter place.tabWidth _
    rw [List.append_assoc, Text.columnAfter, Text.columnAfter, Text.width_append]
    omega

/-- What is open after the line has been open since before it, or starts behind all openers that the reading of
the line warns of. -/
theorem opens_behind_openers (opened : p ∈ (readLine place open? text).open?) :
    p ∈ open? ∨ ∀ d ∈ (readLine place open? text).reports, d.warnsOfOpener → d.position.column < p.column := by
  cases open? with
  | none =>
    refine Or.inr fun d mem warns => ?_
    have given := List.mem_filter.mpr ⟨mem, warns⟩
    rw [readLine, openers_readFresh] at given
    exact absurd given List.not_mem_nil
  | some start =>
    rw [readLine] at opened ⊢
    cases found : splitCloser? text with
    | none =>
      rw [readInside, found] at opened
      exact Or.inl opened
    | some split =>
      refine Or.inr fun d mem warns => ?_
      have given := List.mem_filter.mpr ⟨mem, warns⟩
      rw [openers_readInside_of_closer start found] at given
      rw [readInside, found] at opened
      exact Nat.lt_of_lt_of_le (column_of_checkNested given).2.2 (columnAfter_le_of_afterCloser opened)

/-! ### All lines -/

variable {settings : SourceSettings} {code : List Char} {loaded : Loaded} {i : Nat} {line : Line} {before : List Char}

/-- A line of a loaded source is read under the comment that the lines before it leave open. -/
theorem exists_reading (load : ofText settings code = .ok loaded) (here : loaded.source.lines.get? i = some line) :
    ∃ r, (readLines settings.tabWidth 1 none (Text.physicalLines code))[i]? = some r ∧ r.line = line ∧
      r = readLine ⟨settings.tabWidth, i + 1⟩ (openAfter none (firstReadings settings.tabWidth code i)) line.text ∧
      openAfter none (firstReadings settings.tabWidth code (i + 1)) = r.open? := by
  rw [get?_ofText load] at here
  obtain ⟨r, reading, rfl⟩ := Option.map_eq_some_iff.mp here
  obtain ⟨text, -, read⟩ := getElem?_readLines reading
  have same : r.line.text = text := by rw [read, text_readLine]
  refine ⟨r, reading, rfl, ?_, ?_⟩
  · rw [same, Nat.add_comm i 1]
    exact read
  · rw [firstReadings, ← take_readLines, List.take_add_one, reading, openAfter, Option.toList_some,
      List.getLast?_concat]
    rfl

theorem openerWarnings_eq (load : ofText settings code = .ok loaded) {r : LineReading}
    (reading : (readLines settings.tabWidth 1 none (Text.physicalLines code))[i]? = some r) :
    loaded.openerWarnings i before inside =
      (r.reports.filter (·.warnsOfOpener)).filter (·.startsIn settings.tabWidth before inside) := by
  rw [List.filter_filter, Loaded.openerWarnings, tabWidth_ofText load]
  refine filter_warnings (fun d c code given => ?_) load reading
  obtain ⟨-, warns⟩ := Bool.and_eq_true_iff.mp given
  rw [Diagnostic.warnsOfOpener, code, beq_iff_eq] at warns
  rw [Option.some.inj warns]
  decide

/-- What is open after the first `n` lines starts on one of them. -/
theorem line_of_openAfter {w n : Nat} (opened : openAfter none (firstReadings w code n) = some p) : p.line ≤ n := by
  rcases openAfter_readLines opened with before | ⟨i, text, here, front, back, -, rfl⟩
  · exact nomatch before
  · obtain ⟨inside, -⟩ := List.getElem?_eq_some_iff.mp here
    rw [List.length_take] at inside
    change 1 + i ≤ n
    omega

theorem openerWarnings_of_opening (load : ofText settings code = .ok loaded)
    (holds : loaded.HoldsComment code i true before inside) : loaded.openerWarnings i before inside = [] := by
  cases holds with
  | @opening line front _ here _ whole opened =>
    obtain ⟨r, reading, -, read, after⟩ := exists_reading load here
    rw [tabWidth_ofText load, after, read] at opened
    rw [openerWarnings_eq load reading, read]
    refine List.filter_eq_nil_iff.mpr fun d mem starts => ?_
    obtain ⟨given, warns⟩ := List.mem_filter.mp mem
    obtain ⟨first, -⟩ := Bool.and_eq_true_iff.mp starts
    rcases opens_behind_openers opened with before | behind
    · -- A comment that is open before the line was opened on a line above.
      exact absurd (line_of_openAfter before) (Nat.not_succ_le_self i)
    · have further : d.position.column < Text.columnAfter settings.tabWidth front := behind d given warns
      rw [decide_eq_true_iff, Text.columnAfter, Text.width_append] at first
      rw [Text.columnAfter] at further
      omega

theorem exists_reading_inside (load : ofText settings code = .ok loaded)
    (here : loaded.source.lines.get? i = some line) (role : line.category.InComment) :
    ∃ r start, (readLines settings.tabWidth 1 none (Text.physicalLines code))[i]? = some r ∧
      r = readInside ⟨settings.tabWidth, i + 1⟩ start line.text ∧
      (line.category = .blockCommentBody → splitCloser? line.text = none) ∧
      (line.category = .blockCommentEnd → ∃ split, splitCloser? line.text = some split) := by
  obtain ⟨r, reading, rfl, read, -⟩ := exists_reading load here
  have step :=
    regionStep ⟨settings.tabWidth, i + 1⟩ (openAfter none (firstReadings settings.tabWidth code i)) r.line.text
  rw [← read] at step
  obtain ⟨start, opened⟩ := Option.ne_none_iff_exists'.mp (step.inComment.mp role)
  rw [opened] at read
  refine ⟨r, start, reading, read, fun body => splitMark?_eq_none_iff.mpr (step.body body), fun ends => ?_⟩
  exact Option.ne_none_iff_exists'.mp fun absent => splitMark?_eq_none_iff.mp absent (step.closes ends)

theorem warnsOfFirst_of_inside (load : ofText settings code = .ok loaded)
    (holds : loaded.HoldsComment code i false before inside) :
    WarnsOfFirst ⟨settings.tabWidth, i + 1⟩ before inside (loaded.openerWarnings i before inside) := by
  have checked {r : LineReading}
      (reading : (readLines settings.tabWidth 1 none (Text.physicalLines code))[i]? = some r)
      (openers : r.reports.filter (·.warnsOfOpener) = checkNested ⟨settings.tabWidth, i + 1⟩ inside) :
      WarnsOfFirst ⟨settings.tabWidth, i + 1⟩ [] inside (loaded.openerWarnings i [] inside) := by
    rw [openerWarnings_eq load reading, openers, filter_startsIn_checkNested ⟨settings.tabWidth, i + 1⟩]
    exact checkNested_warnsOfFirst _ inside
  cases holds with
  | @body line here role =>
    obtain ⟨r, start, reading, read, body, -⟩ := exists_reading_inside load here (Or.inl role)
    refine checked reading ?_
    rw [read]
    exact openers_readInside_of_body start (body role)
  | @closing line _ rest here role whole first =>
    obtain ⟨r, start, reading, read, -⟩ := exists_reading_inside load here (Or.inr role)
    refine checked reading ?_
    rw [read]
    exact openers_readInside_of_closer start (splitMark?_eq_some_iff.mpr ⟨whole, first⟩)

theorem exists_holdsComment_of_inside (load : ofText settings code = .ok loaded)
    (here : loaded.source.lines.get? i = some line) (role : line.category.InComment) :
    ∃ inside, loaded.HoldsComment code i false [] inside := by
  rcases role with body | ends
  · exact ⟨_, .body here body⟩
  · obtain ⟨-, -, -, -, -, closes⟩ := exists_reading_inside load here (Or.inr ends)
    obtain ⟨⟨inside, rest⟩, found⟩ := closes ends
    obtain ⟨whole, first⟩ := splitMark?_eq_some_iff.mp found
    exact ⟨inside, .closing here ends whole first⟩

theorem exists_holdsComment_of_opening (load : ofText settings code = .ok loaded)
    (here : loaded.source.lines.get? i = some line) (follows : i + 1 < loaded.source.lineCount)
    (opened : openAfter none (firstReadings settings.tabWidth code (i + 1)) = some p) (on_line : p.line = i + 1) :
    ∃ before inside, loaded.HoldsComment code i true before inside := by
  obtain ⟨r, -, -, read, after⟩ := exists_reading load here
  have starts := opened
  rw [after, read] at starts
  rcases (readLine_at _ _ line.text).opens p starts with above | ⟨front, back, whole, rfl⟩
  · have := line_of_openAfter above
    omega
  · refine ⟨_, _, .opening here follows whole ?_⟩
    rw [tabWidth_ofText load]
    exact opened

end Source

/-- The lines of a comment that takes more than one line are the line on which it is opened, as something is left
open behind it, and the lines inside it. On each of them the first opener in the text of the comment is warned of,
once and with nothing else, but not on the first: there none is warned of. -/
theorem nested_openers_warned_iff {settings : SourceSettings} {code : List Char} {loaded : Loaded}
    (load : Source.ofText settings code = .ok loaded) :
    (∀ i line, loaded.source.lines.get? i = some line →
      (line.category.InComment → ∃ inside, loaded.HoldsComment code i false [] inside) ∧
      ∀ p, Source.openAfter none (Source.firstReadings settings.tabWidth code (i + 1)) = some p →
        p.line = i + 1 → i + 1 < loaded.source.lineCount →
          ∃ before inside, loaded.HoldsComment code i true before inside) ∧
    ∀ i opening before inside, loaded.HoldsComment code i opening before inside →
      (WarnsOfFirst ⟨settings.tabWidth, i + 1⟩ before inside (loaded.openerWarnings i before inside) ↔
        ¬ (opening ∧ ['/', '*'] <:+: inside)) ∧
      (opening → loaded.openerWarnings i before inside = []) := by
  constructor
  · intro i line here
    exact ⟨Source.exists_holdsComment_of_inside load here, fun p opened on_line follows =>
      Source.exists_holdsComment_of_opening load here follows opened on_line⟩
  · intro i opening before inside holds
    cases opening with
    | true =>
      rw [Source.openerWarnings_of_opening load holds, warnsOfFirst_nil_iff]
      exact ⟨by simp, fun _ => rfl⟩
    | false => exact ⟨iff_of_true (Source.warnsOfFirst_of_inside load holds) (by simp), nofun⟩

theorem nested_opener_warned_in_body :
    ∃ loaded, Source.ofText {} "/*\n  /* inner\n*/".toList = .ok loaded ∧
      loaded.HoldsComment "/*\n  /* inner\n*/".toList 1 false [] "  /* inner".toList ∧
      WarnsOfFirst ⟨1, 2⟩ [] "  /* inner".toList (loaded.openerWarnings 1 [] "  /* inner".toList) ∧
      loaded.reports = [Source.nestedWarning ⟨1, 2⟩ [' ', ' ']] := by
  have loads : Source.ofText {} "/*\n  /* inner\n*/".toList = .ok ⟨⟨.ofList [⟨.blockCommentStart, "/*".toList⟩,
      ⟨.blockCommentBody, "  /* inner".toList⟩, ⟨.blockCommentEnd, "*/".toList⟩], 1⟩,
      [Source.nestedWarning ⟨1, 2⟩ [' ', ' ']]⟩ := by
    decide +kernel
  have holds : Loaded.HoldsComment ⟨⟨.ofList [⟨.blockCommentStart, "/*".toList⟩,
      ⟨.blockCommentBody, "  /* inner".toList⟩, ⟨.blockCommentEnd, "*/".toList⟩], 1⟩,
      [Source.nestedWarning ⟨1, 2⟩ [' ', ' ']]⟩ "/*\n  /* inner\n*/".toList 1 false [] "  /* inner".toList :=
    .body (by decide : Arena.get? _ 1 = some (Line.mk .blockCommentBody "  /* inner".toList)) rfl
  exact ⟨_, loads, holds, ((nested_openers_warned_iff loads).2 _ _ _ _ holds).1.mpr (by simp), rfl⟩

/-- An opener behind the one that opens the comment is not warned of. -/
theorem nested_opener_unwarned :
    ∃ loaded, Source.ofText {} "/* a /* b\n*/".toList = .ok loaded ∧
      loaded.HoldsComment "/* a /* b\n*/".toList 0 true ['/', '*'] " a /* b".toList ∧
      ['/', '*'] <:+: " a /* b".toList ∧ loaded.allReports = [] ∧
      ¬ WarnsOfFirst ⟨1, 1⟩ ['/', '*'] " a /* b".toList
        (loaded.openerWarnings 0 ['/', '*'] " a /* b".toList) := by
  have loads : Source.ofText {} "/* a /* b\n*/".toList = .ok ⟨⟨.ofList
      [⟨.blockCommentStart, "/* a /* b".toList⟩, ⟨.blockCommentEnd, "*/".toList⟩], 1⟩, []⟩ := by
    decide +kernel
  have holds : Loaded.HoldsComment ⟨⟨.ofList [⟨.blockCommentStart, "/* a /* b".toList⟩,
      ⟨.blockCommentEnd, "*/".toList⟩], 1⟩, []⟩ "/* a /* b\n*/".toList 0 true ([] ++ ['/', '*']) " a /* b".toList :=
    .opening (by decide : Arena.get? _ 0 = some (Line.mk .blockCommentStart "/* a /* b".toList)) (by decide)
      (by decide) (by decide +kernel)
  have inside : ['/', '*'] <:+: " a /* b".toList := by decide +kernel
  have silent : Loaded.allReports ⟨⟨.ofList [⟨.blockCommentStart, "/* a /* b".toList⟩,
      ⟨.blockCommentEnd, "*/".toList⟩], 1⟩, []⟩ = [] := by
    decide +kernel
  refine ⟨_, loads, holds, inside, silent, ?_⟩
  rw [Loaded.openerWarnings, silent, List.filter_nil, warnsOfFirst_nil_iff, not_not]
  exact inside

end VhdlFrontEnd
