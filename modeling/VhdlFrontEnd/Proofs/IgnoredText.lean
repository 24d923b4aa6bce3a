import VhdlFrontEnd.Proofs.InStep
import VhdlFrontEnd.Proofs.Roles
import VhdlFrontEnd.Proofs.Suppression

/-!
# Text behind a closer

What stands behind the closer of a comment is never cut into tokens. `ignoredText?` finds the text
there that is neither blank nor comment; `ignored_text_warned_iff` says on which lines a run warns
of it, and on which it does not.
-/

namespace VhdlFrontEnd

/-- The first text that is no blank and no closed comment, up to the end of the line; none if the
line ends before, or goes on as a comment. -/
def Source.ignoredText? : List Char → Option (List Char)
  | [] => none
  | c :: rest =>
    if Text.isBlank c then ignoredText? rest
    else if c = '-' ∧ rest.head? = some '-' then none
    else if c = '/' ∧ rest.head? = some '*' then
      match _h : splitCloser? rest.tail with
      | some (_, after) => ignoredText? after
      | none => none
    else some (c :: rest)
termination_by cs => cs.length
decreasing_by
  · exact Nat.lt_succ_self _
  · have shorter := length_back_lt _h
    rw [List.length_tail] at shorter
    rw [List.length_cons]
    omega

/-- A comment that is open before the line, or that starts it, closes on the line. -/
def Line.ClosesComment (line : Line) : Prop :=
  line.category = .blockCommentEnd ∨
    line.category = .lineComment ∧ ['/', '*'] <+: line.text.dropWhile Text.isBlank

/-- What stands behind the first closer of such a line. -/
def Line.behindCloser? (line : Line) : Option (List Char) :=
  if line.category = .blockCommentEnd then (Source.splitCloser? line.text).map (·.2)
  else (Source.splitCloser? ((line.text.dropWhile Text.isBlank).drop 2)).map (·.2)

/-- The report warns that text behind a closer is ignored. -/
def Diagnostic.warnsOfText (d : Diagnostic) : Bool := d.code? == some .textAfterComment

/-- The warnings of a run that text on the line with index `i` is ignored. -/
def Loaded.textWarnings (loaded : Loaded) (i : Nat) : List Diagnostic :=
  loaded.allReports.filter fun d => d.warnsOfText && d.position.line == i + 1

namespace Source

variable {place : LinePlace} {open? : Option Position} {before rest text tail : List Char} {c : Char}

/-! ### The text that is ignored -/

theorem ignoredText?_dropBlanks (cs : List Char) : ignoredText? (cs.dropWhile Text.isBlank) = ignoredText? cs := by
  induction cs with
  | nil => rfl
  | cons c cs ih =>
    by_cases blank : Text.isBlank c
    · rw [List.dropWhile_cons_of_pos blank, ih, ignoredText?, if_pos blank]
    · rw [List.dropWhile_cons_of_neg blank]

theorem ignoredText?_lineComment (rest : List Char) : ignoredText? ('-' :: '-' :: rest) = none := by
  rw [ignoredText?, if_neg (by decide), if_pos ⟨rfl, rfl⟩]

theorem ignoredText?_opener (body : List Char) :
    ignoredText? ('/' :: '*' :: body) = (splitCloser? body).bind fun split => ignoredText? split.2 := by
  rw [ignoredText?, if_neg (by decide), if_neg (by simp), if_pos ⟨rfl, rfl⟩]
  dsimp only [List.tail_cons]
  cases splitCloser? body <;> rfl

theorem ignoredText?_other (ink : ¬ Text.isBlank c) (dashes : ¬ ['-', '-'] <+: c :: rest)
    (opener : ¬ ['/', '*'] <+: c :: rest) : ignoredText? (c :: rest) = some (c :: rest) := by
  rw [pair_prefix_cons] at dashes opener
  rw [ignoredText?, if_neg ink, if_neg dashes, if_neg opener]

/-- Text is ignored just where cutting into pieces would find a lexeme. -/
theorem isSome_ignoredText?_iff (previous? : Option TokenKind) (cs : List Char) :
    (ignoredText? cs).isSome ↔ ∃ p ∈ Piece.pieces previous? cs, ¬ p.isGap := by
  cases cs with
  | nil => simp [ignoredText?, Piece.pieces_nil]
  | cons c rest =>
    have shorter := Piece.length_first_lt previous? c rest
    rw [Piece.pieces_cons, List.exists_mem_cons_iff, ← isSome_ignoredText?_iff _ (Piece.first previous? c rest).2]
    unfold Piece.first
    by_cases blank : Text.isBlank c
    · rw [if_pos blank, ignoredText?_dropBlanks, ignoredText?, if_pos blank]
      simp [Piece.isGap]
    rw [if_neg blank]
    by_cases dashes : ['-', '-'] <+: c :: rest
    · obtain ⟨body, same⟩ := exists_of_pair_prefix dashes
      rw [same, ignoredText?_lineComment]
      simp [Piece.comment?, Piece.isGap, ignoredText?]
    by_cases opener : ['/', '*'] <+: c :: rest
    · obtain ⟨body, same⟩ := exists_of_pair_prefix opener
      rw [same, ignoredText?_opener, Piece.comment?]
      cases splitCloser? body <;> simp [Piece.isGap, ignoredText?]
    · rw [Piece.comment?_eq_none_iff.mpr ⟨dashes, opener⟩, ignoredText?_other blank dashes opener]
      simp [Piece.isGap]
termination_by cs.length
decreasing_by exact shorter

/-! ### One line -/

theorem trimEnd_cons (ink : ¬ Text.isBlank c) (rest : List Char) : trimEnd (c :: rest) = c :: trimEnd rest := by
  rw [trimEnd, trimEnd, List.reverse_cons, List.dropWhile_append]
  split
  · next nothing =>
    rw [List.dropWhile_cons_of_neg ink, List.isEmpty_iff.mp nothing]
    rfl
  · rw [List.reverse_append]
    rfl

theorem isPrefixOf_trimEnd {mark more : List Char} (none_starts : ¬ mark <+: c :: more)
    (part : c :: rest <+: c :: more) : mark.isPrefixOf (c :: trimEnd rest) = false := by
  have trimmed : c :: trimEnd rest <+: c :: more :=
    (List.cons_prefix_cons.mpr ⟨rfl, trimEnd_prefix rest⟩).trans part
  rw [← Bool.not_eq_true, List.isPrefixOf_iff_prefix]
  exact fun starts => none_starts (starts.trans trimmed)

theorem checkTrailing_dropBlanks (region : List Char) :
    (checkTrailing place before region).length =
      if (trimEnd (region.dropWhile Text.isBlank)).isEmpty ||
        ['-', '-'].isPrefixOf (trimEnd (region.dropWhile Text.isBlank)) ||
        ['/', '*'].isPrefixOf (trimEnd (region.dropWhile Text.isBlank)) then 0 else 1 := by
  unfold checkTrailing
  dsimp only
  split <;> rfl

/-- What is looked at behind a closer: all up to an opener that nothing closes. -/
def region (rest : List Char) : List Char := (unclosedOpener? rest).getD rest

theorem afterCloser_reports (place : LinePlace) (before rest : List Char) :
    (afterCloser place before rest).2 = checkTrailing place before (region rest) := by
  unfold afterCloser region
  cases unclosedOpener? rest <;> rfl

theorem region_dropBlanks (rest : List Char) :
    (region rest).dropWhile Text.isBlank = (region (rest.dropWhile Text.isBlank)).dropWhile Text.isBlank := by
  have quiet := quiet_takeWhile (p := Text.isBlank) rest (by decide)
  have skipped := skipped_of_quiet quiet (rest.dropWhile Text.isBlank)
  have found := skipped.unclosedOpener?
  have blanks : ∀ c ∈ rest.takeWhile Text.isBlank, Text.isBlank c = true :=
    List.all_eq_true.mp List.all_takeWhile
  rw [List.takeWhile_append_dropWhile] at found
  have moved : region rest = rest.takeWhile Text.isBlank ++ region (rest.dropWhile Text.isBlank) := by
    unfold region
    rw [found]
    cases unclosedOpener? (rest.dropWhile Text.isBlank) with
    | none => exact List.takeWhile_append_dropWhile.symm
    | some front => rfl
  rw [moved, List.dropWhile_append_of_pos blanks]

theorem region_of_other (opener : ¬ ['/', '*'] <+: c :: rest) :
    ∃ more, region (c :: rest) = c :: more ∧ c :: more <+: c :: rest := by
  unfold region
  cases found : unclosedOpener? (c :: rest) with
  | none => exact ⟨rest, rfl, List.prefix_rfl⟩
  | some front =>
    obtain ⟨body, split, -⟩ := unclosedOpener?_eq_some_iff.mp found
    cases front with
    | nil =>
      rw [List.nil_append] at split
      exact absurd ⟨body, split.symm⟩ opener
    | cons d more =>
      obtain ⟨rfl, -⟩ := List.cons.inj split
      exact ⟨more, rfl, '/' :: '*' :: body, split.symm⟩

theorem region_of_opener (body : List Char) :
    region ('/' :: '*' :: body) = [] ∨ ∃ more, region ('/' :: '*' :: body) = '/' :: '*' :: more := by
  unfold region
  by_cases closes : ['*', '/'] <:+: body
  · cases found : splitCloser? body with
    | none => exact absurd closes (splitMark?_eq_none_iff.mp found)
    | some split =>
      obtain ⟨inside, after⟩ := split
      obtain ⟨rfl, first⟩ := splitMark?_eq_some_iff.mp found
      rw [unclosedOpener?_comment first]
      cases unclosedOpener? after <;> exact Or.inr ⟨_, rfl⟩
  · rw [unclosedOpener?_openComment closes]
    exact Or.inl rfl

/-- A warning is given for text that is ignored, unless a comment stands between the closer and
the text. -/
theorem length_afterCloser (place : LinePlace) (before rest : List Char) :
    (afterCloser place before rest).2.length =
      if (ignoredText? rest).isSome ∧ ¬ ['/', '*'] <+: rest.dropWhile Text.isBlank then 1 else 0 := by
  rw [afterCloser_reports, checkTrailing_dropBlanks, region_dropBlanks, ← ignoredText?_dropBlanks rest]
  cases start : rest.dropWhile Text.isBlank with
  | nil => simp [region, unclosedOpener?, trimEnd, ignoredText?]
  | cons c more =>
    have ink : ¬ Text.isBlank c := by
      have first := List.head?_dropWhile_not Text.isBlank rest
      rw [start] at first
      simpa using first
    by_cases dashes : ['-', '-'] <+: c :: more
    · obtain ⟨body, same⟩ := exists_of_pair_prefix dashes
      obtain ⟨rfl, rfl⟩ := List.cons.inj same
      have none_open : region ('-' :: '-' :: body) = '-' :: '-' :: body := by
        rw [region, unclosedOpener?_lineComment]
        rfl
      rw [none_open, List.dropWhile_cons_of_neg ink, trimEnd_cons ink, trimEnd_cons ink,
        ignoredText?_lineComment]
      simp
    by_cases opener : ['/', '*'] <+: c :: more
    · obtain ⟨body, same⟩ := exists_of_pair_prefix opener
      obtain ⟨rfl, rfl⟩ := List.cons.inj same
      rcases region_of_opener body with nothing | ⟨x, same⟩
      · rw [nothing]
        simp [trimEnd]
      · rw [same, List.dropWhile_cons_of_neg ink, trimEnd_cons ink, trimEnd_cons (by decide)]
        simp
    · -- Neither end of the text is cut past `c`, so the marks it does not start with stay away.
      obtain ⟨x, same, part⟩ := region_of_other opener
      rw [same, List.dropWhile_cons_of_neg ink, trimEnd_cons ink, isPrefixOf_trimEnd dashes part,
        isPrefixOf_trimEnd opener part, ignoredText?_other ink dashes opener]
      simp [opener]

theorem filter_checkNested (place : LinePlace) (region : List Char) :
    (checkNested place region).filter (·.warnsOfText) = [] := by
  unfold checkNested
  split <;> rfl

theorem filter_afterCloser (place : LinePlace) (before rest : List Char) :
    (afterCloser place before rest).2.filter (·.warnsOfText) = (afterCloser place before rest).2 := by
  rw [afterCloser_reports, checkTrailing]
  split <;> rfl

/-- On a line that closes a comment, text is warned of only behind the first closer. -/
theorem warnings_of_closer (closes : (readLine place open? text).line.ClosesComment) :
    ∃ before rest, (readLine place open? text).line.behindCloser? = some rest ∧
      (readLine place open? text).reports.filter (·.warnsOfText) = (afterCloser place before rest).2 := by
  cases open? with
  | none =>
    rcases closes with ends | ⟨comment, starts⟩
    · exact absurd rfl (inComment_readLine_iff.mp (Or.inr ends))
    rw [text_readLine] at starts
    obtain ⟨body, start⟩ := exists_of_pair_prefix starts
    cases found : splitCloser? body with
    | none =>
      rw [readLine, readFresh_unclosed place start found] at comment
      exact nomatch comment
    | some split =>
      have read := readFresh_closed place start found
      refine ⟨text.takeWhile Text.isBlank ++ '/' :: '*' :: split.1 ++ ['*', '/'], split.2, ?_, ?_⟩
      · rw [readLine, read, Line.behindCloser?, if_neg (by simp), start]
        exact congrArg _ found
      · rw [readLine, read]
        exact filter_afterCloser place _ split.2
  | some start =>
    rcases closes with ends | ⟨comment, -⟩
    · rw [readLine, readInside] at ends ⊢
      cases found : splitCloser? text with
      | none =>
        rw [found] at ends
        exact nomatch ends
      | some split =>
        refine ⟨split.1 ++ ['*', '/'], split.2, ?_, ?_⟩
        · rw [Line.behindCloser?, if_pos rfl]
          exact congrArg _ found
        · dsimp only
          rw [List.filter_append, filter_checkNested, filter_afterCloser]
          rfl
    · rw [readLine] at comment
      rcases readInside_inComment place start text with body | ends
      · exact nomatch body.symm.trans comment
      · exact nomatch ends.symm.trans comment

/-! ### All reports -/

variable {w number i : Nat} {texts : List (List Char)} {r : LineReading}

/-- The reports about one line, of those about all. -/
theorem filter_line_readLines (here : (readLines w number open? texts)[i]? = some r) :
    ((readLines w number open? texts).flatMap (·.reports)).filter (·.position.line == number + i) = r.reports := by
  induction texts generalizing number open? i with
  | nil => exact nomatch here
  | cons text texts ih =>
    obtain ⟨-, first⟩ := reports_of_readAt (readLine_at ⟨w, number⟩ open? text)
    obtain ⟨-, below⟩ := reports_of_readLines w (number + 1) (readLine ⟨w, number⟩ open? text).open? texts
    rw [readLines, List.flatMap_cons, List.filter_append]
    cases i with
    | zero =>
      cases here
      have others : ∀ d ∈ (readLines w (number + 1) (readLine ⟨w, number⟩ open? text).open? texts).flatMap
          (·.reports), ¬ (d.position.line == number + 0) = true := by
        intro d mem at_line
        obtain ⟨n, later, warns⟩ := below d mem
        rw [beq_iff_eq, warns.line] at at_line
        omega
      rw [List.filter_eq_nil_iff.mpr others, List.append_nil]
      exact List.filter_eq_self.mpr fun d mem => beq_iff_eq.mpr (first d mem).line
    | succ i =>
      have others : ∀ d ∈ (readLine ⟨w, number⟩ open? text).reports,
          ¬ (d.position.line == number + (i + 1)) = true := by
        intro d mem at_line
        rw [beq_iff_eq, (first d mem).line] at at_line
        omega
      rw [List.filter_eq_nil_iff.mpr others, List.nil_append, ← ih here, Nat.add_right_comm, Nat.add_assoc]

/-- Only the reading of lines gives warnings; the other phases give errors. -/
theorem code_of_laterReports {s : Source} {d : Diagnostic} (mem : d ∈ s.lexicalReports ++ s.outlineReports) :
    ∃ c, d.code? = some c ∧ c.letters = "E" := by
  rcases List.mem_append.mp mem with mem | mem
  · obtain ⟨l, -, given⟩ := List.mem_filterMap.mp mem
    obtain ⟨fault, -, -, code, -⟩ := Located.report?_eq_some given
    exact ⟨fault.code, code, by cases fault <;> rfl⟩
  · obtain ⟨found, -, given⟩ := List.mem_filterMap.mp mem
    cases found with
    | unit u => exact nomatch given
    | malformed e =>
      cases given
      unfold Outline.expectedReport
      dsimp only
      split <;> exact ⟨_, rfl, rfl⟩
    | unexpected t =>
      cases given
      exact ⟨_, rfl, rfl⟩
    | skipped => exact nomatch given

/-- The warnings of a run about one line are those of its reading. -/
theorem filter_warnings {settings : SourceSettings} {code : List Char} {loaded : Loaded} {p : Diagnostic → Bool}
    (warns : ∀ d c, d.code? = some c → p d → c.letters ≠ "E") (load : ofText settings code = .ok loaded)
    (here : (readLines settings.tabWidth 1 none (Text.physicalLines code))[i]? = some r) :
    loaded.allReports.filter (fun d => p d && d.position.line == i + 1) = r.reports.filter p := by
  have others {ds : List Diagnostic} (errors : ∀ d ∈ ds, ∃ c, d.code? = some c ∧ c.letters = "E") :
      ds.filter (fun d => p d && d.position.line == i + 1) = [] := by
    refine List.filter_eq_nil_iff.mpr fun d mem given => ?_
    obtain ⟨c, code, error⟩ := errors d mem
    exact warns d c code (Bool.and_eq_true_iff.mp given).1 error
  have later := others fun d (mem : d ∈ loaded.source.lexicalReports ++ loaded.source.outlineReports) =>
    code_of_laterReports mem
  have unterminated (open? : Option Position) := others fun d (mem : d ∈ (open?.map unterminatedError).toList) => by
    obtain ⟨start, -, rfl⟩ := Option.map_eq_some_iff.mp (Option.mem_toList.mp mem)
    exact ⟨.unterminatedComment, rfl, rfl⟩
  rw [Loaded.allReports, List.append_assoc, List.filter_append, later, List.append_nil]
  obtain ⟨-, rfl⟩ := ofText_eq_ok.mp load
  rw [ofLines, List.filter_append, unterminated, List.append_nil, ← List.filter_filter, Nat.add_comm i 1,
    filter_line_readLines here]

theorem textWarnings_eq {settings : SourceSettings} {code : List Char} {loaded : Loaded}
    (load : ofText settings code = .ok loaded)
    (here : (readLines settings.tabWidth 1 none (Text.physicalLines code))[i]? = some r) :
    loaded.textWarnings i = r.reports.filter (·.warnsOfText) := by
  refine filter_warnings (fun d c code warns => ?_) load here
  rw [Diagnostic.warnsOfText, code, beq_iff_eq] at warns
  rw [Option.some.inj warns]
  decide

end Source

/-- On a line that closes a comment, a run warns once of the text behind the closer that it keeps from
being cut into tokens, unless a comment stands between the closer and the text: of such text it does
not warn. Where there is no text, it does not warn either. -/
theorem ignored_text_warned_iff {settings : SourceSettings} {code : List Char} {loaded : Loaded}
    {i : Nat} {line : Line} (load : Source.ofText settings code = .ok loaded)
    (here : loaded.source.lines.get? i = some line) (closes : line.ClosesComment) :
    ∃ rest, line.behindCloser? = some rest ∧
      ((Source.ignoredText? rest).isSome ↔ ∃ p ∈ Piece.pieces none rest, ¬ p.isGap) ∧
      (loaded.textWarnings i).length =
        (if (Source.ignoredText? rest).isSome ∧ ¬ ['/', '*'] <+: rest.dropWhile Text.isBlank then 1 else 0) ∧
      ((loaded.textWarnings i).length = (if (Source.ignoredText? rest).isSome then 1 else 0) ↔
        ¬ ((Source.ignoredText? rest).isSome ∧ ['/', '*'] <+: rest.dropWhile Text.isBlank)) := by
  rw [Source.get?_ofText load] at here
  obtain ⟨r, reading, rfl⟩ := Option.map_eq_some_iff.mp here
  have warnings := Source.textWarnings_eq load reading
  obtain ⟨text, -, rfl⟩ := Source.getElem?_readLines reading
  obtain ⟨before, rest, behind, given⟩ := Source.warnings_of_closer closes
  refine ⟨rest, behind, Source.isSome_ignoredText?_iff none rest, ?_⟩
  rw [warnings, given, Source.length_afterCloser]
  refine ⟨rfl, ?_⟩
  by_cases ignored : (Source.ignoredText? rest).isSome
  · by_cases comment : ['/', '*'] <+: rest.dropWhile Text.isBlank
    · simp [ignored, comment]
    · simp [ignored, comment]
  · simp [ignored]

/-- Text before a comment that is opened again is warned of. -/
theorem ignored_text_warned_before_comment :
    ∃ loaded line, Source.ofText {} "/* a */ b /* c\n*/".toList = .ok loaded ∧
      loaded.source.lines.get? 0 = some line ∧ line.ClosesComment ∧
      line.behindCloser? = some " b /* c".toList ∧ (loaded.textWarnings 0).length = 1 := by
  have loads : Source.ofText {} "/* a */ b /* c\n*/".toList = .ok ⟨⟨.ofList
      [⟨.lineComment, "/* a */ b /* c".toList⟩, ⟨.blockCommentEnd, "*/".toList⟩], 1⟩,
      [{ Diagnostic.warning .textAfterComment ⟨⟨1, 9⟩, 1⟩
          "text after the end of a block comment is ignored" with
        helps := ["move this text to its own line"] }]⟩ := by
    decide +kernel
  have closes : (Line.mk .lineComment "/* a */ b /* c".toList).ClosesComment := by
    exact Or.inr ⟨rfl, by decide +kernel⟩
  obtain ⟨rest, behind, -, warned, -⟩ := ignored_text_warned_iff (i := 0) loads rfl closes
  have same : rest = " b /* c".toList :=
    Option.some.inj (behind.symm.trans (by decide +kernel))
  subst same
  refine ⟨_, _, loads, rfl, closes, behind, ?_⟩
  rw [warned, if_pos]
  decide +kernel

/-- Text behind a closer and another comment is ignored without a warning. -/
theorem ignored_text_unwarned :
    ∃ loaded line, Source.ofText {} "/*\n*/ /* a */ x".toList = .ok loaded ∧
      loaded.source.lines.get? 1 = some line ∧ line.category = .blockCommentEnd ∧
      line.behindCloser? = some " /* a */ x".toList ∧
      Source.ignoredText? " /* a */ x".toList = some ['x'] ∧ loaded.textWarnings 1 = [] :=
  ⟨⟨⟨.ofList [⟨.blockCommentStart, "/*".toList⟩, ⟨.blockCommentEnd, "*/ /* a */ x".toList⟩], 1⟩, []⟩, _,
    by decide +kernel, rfl, rfl, by decide +kernel, by decide +kernel, by decide +kernel⟩

end VhdlFrontEnd
