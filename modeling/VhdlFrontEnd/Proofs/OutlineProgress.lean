import VhdlFrontEnd.Proofs.OutlineByIndex

/-!
# The outline comes to its end

`run?_turn` says what one turn of the main loop comes to, and `run?_outline` what the whole loop does: the outline and
the reports of `parse`, at the end of the file. `outline_reading_ends` puts together where the loops stop, that each
turn gets further, and how many reports there can be.
-/

namespace VhdlFrontEnd.Outline

variable {source : Source} {tokens front back rest : List Token} {first : Token} {reports : List Diagnostic}

/-! ### Statements -/

namespace Routine

/-- What is passed over is what stands up to the next semicolon, with it. -/
theorem run?_skip {front back : List Token} (reports : List Diagnostic) (here : upToEof tokens = front ++ back) :
    ∃ used, back = used ++ afterSemicolon back ∧
      (skip tokens).run? (.behind front reports) = some (.ok (), .behind (front ++ used) reports) := by
  induction back generalizing front with
  | nil =>
    refine ⟨[], rfl, run?_loop_end ?_⟩
    rw [skipNext, run?_get_bind, index_behind, kindAt_behind here, List.append_nil]
    rfl
  | cons t rest ih =>
    have kind : kindAt tokens front.length = t.kind := kindAt_behind here
    have later := here.trans (List.append_cons front t rest)
    have step : (skipNext tokens).run? (.behind front reports) =
        (if t.kind = .symbol .semicolon then return .inl () else return .inr () : Routine (Unit ⊕ Unit)).run?
          (.behind (front ++ [t]) reports) := by
      rw [skipNext, run?_get_bind, index_behind, kind]
      dsimp only
      rw [if_neg (ne_eof_of_upToEof here), run?_bind_ok (run?_advance reports here)]
    by_cases mark : t.kind = .symbol .semicolon
    · rw [if_pos mark] at step
      exact ⟨[t], by rw [afterSemicolon_semicolon rest mark]; rfl, run?_loop_end step⟩
    · rw [if_neg mark] at step
      obtain ⟨used, split, run⟩ := ih later
      refine ⟨t :: used, ?_, ?_⟩
      · rw [afterSemicolon_cons rest mark, List.cons_append, ← split]
      · rw [skip, run?_loop_next step, ← skip, run, List.append_assoc]
        rfl

/-- A statement is told by its first token. -/
theorem run?_statement_eq (source : Source) (reports : List Diagnostic)
    (here : upToEof tokens = front ++ first :: rest) : (statement source tokens).run? (.behind front reports) =
      (match header? source tokens first.kind first.position with
        | some header => do
          advance tokens
          return some (← header)
        | none =>
          if isStrayCloser first.kind then do
            report (.error .unexpectedToken (tokenSpan source first) ("unexpected " ++ first.kind.render))
            throw ()
          else do
            skip tokens
            return none : Routine (Option DesignUnit)).run? (.behind front reports) := by
  have kind : kindAt tokens front.length = first.kind := kindAt_behind here
  have found := getElem?_behind here
  have position : positionAt tokens front.length = first.position := by
    rw [positionAt, found]
    rfl
  have span : spanAt source tokens front.length = tokenSpan source first := by
    rw [spanAt, found]
  rw [← kind, ← position, ← span]
  exact run?_get_bind _ _

/-- A statement that makes no report takes its tokens and gives its unit, if it has one; any other stops at the report,
and the tokens up to the next semicolon are left of it. -/
theorem run?_statement (source : Source) (reports : List Diagnostic)
    (here : upToEof tokens = front ++ first :: rest) :
    ∃ used after s next, first :: rest = used ++ after ∧
      Outline.statement (spelled source) first rest = (s, next) ∧
      ((next = after ∧ s.report? source (endSpan source tokens) = none ∧
          (statement source tokens).run? (.behind front reports) =
            some (.ok s.unit?, .behind (front ++ used) reports)) ∨
        (next = afterSemicolon after ∧ s.unit? = none ∧ ∃ d, s.report? source (endSpan source tokens) = some d ∧
          (statement source tokens).run? (.behind front reports) =
            some (.error (), .behind (front ++ used) (reports ++ [d])))) := by
  have begins := run?_statement_eq source reports here
  have later := here.trans (List.append_cons front first rest)
  rcases header?_follows source tokens first.kind first.position with
    ⟨no_routine, no_header⟩ | ⟨m, part, routine, header, follows⟩
  · rw [no_routine] at begins
    have other := header?_eq_none_iff.mp no_header
    by_cases closer : isStrayCloser first.kind
    · rw [if_pos closer] at begins
      exact ⟨[], first :: rest, _, _, rfl, statement_of_stray (spelled source) closer rest,
        Or.inr ⟨rfl, rfl, _, rfl, by rw [begins, List.append_nil]; rfl⟩⟩
    · rw [if_neg closer] at begins
      obtain ⟨used, split, run⟩ := run?_skip reports here
      refine ⟨used, _, _, _, split, statement_of_other (spelled source) other closer rest,
        Or.inl ⟨rfl, rfl, ?_⟩⟩
      rw [begins, run?_bind_ok run]
      rfl
  · rw [routine] at begins
    have behind := follows _ rest reports later
    unfold FollowsAt at behind
    split at behind
    · next unit next given =>
      obtain ⟨used, rfl, run⟩ := behind
      have reads : Outline.statement (spelled source) first (used ++ next) = (.unit unit, next) := by
        rw [Outline.statement, header]
        dsimp only
        rw [given]
      refine ⟨first :: used, next, _, _, rfl, reads, Or.inl ⟨rfl, rfl, ?_⟩⟩
      rw [begins, run?_bind_ok (run?_advance reports here), run?_bind_ok run, List.append_assoc]
      rfl
    · next deviation given =>
      obtain ⟨used, split, run⟩ := behind
      have reads : Outline.statement (spelled source) first rest =
          (.malformed deviation, afterSemicolon deviation.rest) := by
        rw [Outline.statement, header]
        dsimp only
        rw [given]
      refine ⟨first :: used, _, _, _, by rw [split]; rfl, reads, Or.inr ⟨rfl, rfl, _, rfl, ?_⟩⟩
      rw [begins, run?_bind_ok (run?_advance reports here), run?_bind_error run, List.append_assoc]
      rfl

/-- A turn of the main loop: a statement is read to its end, with the unit that it gives, or it stops with a report
and what is left of it is passed over. -/
inductive Turns (source : Source) (tokens : List Token) (r : Reader) : Option DesignUnit → Reader → Prop where
  | read {unit? next} : (statement source tokens).run? r = some (.ok unit?, next) → Turns source tokens r unit? next
  | recovered {failed next} : (statement source tokens).run? r = some (.error (), failed) →
      (skip tokens).run? failed = some (.ok (), next) → Turns source tokens r none next

theorem Turns.run? {r next : Reader} {unit? : Option DesignUnit} (turns : Turns source tokens r unit? next) :
    (turn source tokens).run? r = some (.ok unit?, next) := by
  cases turns with
  | read read => rw [turn, run?_tryCatch, read, Option.bind_some]
  | recovered stopped skipped =>
    rw [turn, run?_tryCatch, stopped, Option.bind_some]
    dsimp only
    rw [run?_bind_ok skipped, run?_pure]

/-- A turn takes the tokens of a statement, and there is one at least. -/
theorem run?_turn (source : Source) (reports : List Diagnostic) (here : upToEof tokens = front ++ first :: rest) :
    ∃ used s next, first :: rest = used ++ next ∧ used ≠ [] ∧
      Outline.statement (spelled source) first rest = (s, next) ∧
      Turns source tokens (.behind front reports) s.unit?
        (.behind (front ++ used) (reports ++ (s.report? source (endSpan source tokens)).toList)) := by
  obtain ⟨used, after, s, next, split, gives, read⟩ := run?_statement source reports here
  have shorter := length_statement_lt (spelled source) first rest
  rw [gives] at shorter
  have taken {used : List Token} (split : first :: rest = used ++ next) : used ≠ [] := by
    rintro rfl
    rw [split, List.nil_append] at shorter
    exact Nat.lt_irrefl _ shorter
  rcases read with ⟨rfl, silent, run⟩ | ⟨rfl, no_unit, d, reported, run⟩
  · refine ⟨used, s, _, split, taken split, gives, .read ?_⟩
    rw [run, silent, Option.toList_none, List.append_nil]
  · rw [split, ← List.append_assoc] at here
    obtain ⟨passed, after_split, skipped⟩ := run?_skip (reports ++ [d]) here
    have split : first :: rest = used ++ passed ++ afterSemicolon after := by
      rw [split, List.append_assoc, ← after_split]
    refine ⟨used ++ passed, s, _, split, taken split, gives, ?_⟩
    rw [no_unit, reported, ← List.append_assoc]
    exact .recovered run skipped

/-- All statements that are left are read, up to the end of the file. -/
theorem run?_outline {front back : List Token} (units : List DesignUnit) (reports : List Diagnostic)
    (here : upToEof tokens = front ++ back) : (outline source tokens units).run? (.behind front reports) =
      some (.ok (units ++ (statements (spelled source) back).filterMap (·.unit?)), .behind (upToEof tokens)
        (reports ++ (statements (spelled source) back).filterMap (·.report? source (endSpan source tokens)))) := by
  cases back with
  | nil =>
    have ended : kindAt tokens front.length = .eof := kindAt_behind here
    rw [statements_nil, List.filterMap_nil, List.filterMap_nil, List.append_nil, List.append_nil, here, List.append_nil]
    refine run?_loop_end ?_
    rw [nextUnit, run?_get_bind, index_behind, if_pos ended, run?_pure]
  | cons first rest =>
    have other := kindAt_ne_eof here
    obtain ⟨used, s, next, split, taken, gives, turns⟩ := run?_turn source reports here
    have shorter : next.length < (first :: rest).length := by
      have := List.length_pos_iff.mpr taken
      rw [split, List.length_append]
      omega
    have step : (nextUnit source tokens units).run? (.behind front reports) =
        some (.ok (.inr (units ++ s.unit?.toList)), .behind (front ++ used) (reports ++ (s.report? source (endSpan source tokens)).toList)) := by
      rw [nextUnit, run?_get_bind, index_behind, if_neg other, run?_bind_ok turns.run?, run?_pure]
    rw [split, ← List.append_assoc] at here
    rw [outline, run?_loop_next step, ← outline, run?_outline _ _ here, statements_cons, gives]
    cases s <;> simp [Statement.unit?, Statement.report?]
termination_by back.length

end Routine

/-! ### Up to the end of the file -/

/-- The index of the first end of the file; where there is none, that behind the last token. -/
def stopIndex (tokens : List Token) : Nat := tokens.findIdx (·.kind = .eof)

theorem length_upToEof (tokens : List Token) : (upToEof tokens).length = stopIndex tokens := by
  unfold upToEof stopIndex
  rw [List.takeWhile_eq_take_findIdx_not, List.length_take]
  simp [List.findIdx_le_length]

theorem kindAt_eq_eof_iff {index : Nat} (within : index ≤ stopIndex tokens) :
    kindAt tokens index = .eof ↔ index = stopIndex tokens := by
  rw [← length_upToEof] at within ⊢
  have here := (List.take_append_drop index (upToEof tokens)).symm
  have kind := kindAt_behind here
  rw [List.length_take_of_le within] at kind
  rw [kind]
  cases left : (upToEof tokens).drop index with
  | nil =>
    have := List.drop_eq_nil_iff.mp left
    simp only [List.head?_nil, Option.map_none, Option.getD_none, true_iff]
    omega
  | cons t rest =>
    have behind : index < (upToEof tokens).length := by
      have := congrArg List.length left
      rw [List.length_drop, List.length_cons] at this
      omega
    rw [left] at here
    exact ⟨fun eof => absurd eof (ne_eof_of_upToEof here), fun same => absurd same (Nat.ne_of_lt behind)⟩

/-- From any place up to the end of the file the routine comes to an end: not further back, and not past that. -/
def Routine.Ends {α : Type} (tokens : List Token) (m : Routine α) : Prop :=
  ∀ r, r.index ≤ stopIndex tokens →
    ∃ result next, m.run? r = some (result, next) ∧ r.index ≤ next.index ∧ next.index ≤ stopIndex tokens

/-- A reader up to the end of the file stands behind some of the tokens before it. -/
theorem Reader.exists_behind {r : Reader} (within : r.index ≤ stopIndex tokens) :
    ∃ front back, upToEof tokens = front ++ back ∧ r = .behind front r.reports := by
  rw [← length_upToEof] at within
  refine ⟨_, _, (List.take_append_drop r.index _).symm, ?_⟩
  rw [Reader.behind, List.length_take_of_le within]

theorem length_le_stopIndex {used : List Token} (here : upToEof tokens = front ++ back) (split : back = used ++ rest) :
    (front ++ used).length ≤ stopIndex tokens := by
  rw [← length_upToEof, here, split, List.length_append, List.length_append, List.length_append, ← Nat.add_assoc]
  exact Nat.le_add_right _ _

namespace Routine

variable {α : Type} {m : Routine α}

theorem Ends.of_behind (run : ∀ front back reports, upToEof tokens = front ++ back → ∃ used rest result reports',
    back = used ++ rest ∧ m.run? (.behind front reports) = some (result, .behind (front ++ used) reports')) :
    m.Ends tokens := by
  intro r within
  obtain ⟨front, back, here, place⟩ := Reader.exists_behind within
  obtain ⟨used, rest, result, reports', split, run⟩ := run front back r.reports here
  rw [place]
  refine ⟨result, _, run, ?_, length_le_stopIndex here split⟩
  rw [index_behind, index_behind, List.length_append]
  exact Nat.le_add_right _ _

theorem Follows.ends {part : Part α} (follows : m.Follows source tokens part) : m.Ends tokens := by
  refine Ends.of_behind fun front back reports here => ?_
  have behind := follows front back reports here
  unfold FollowsAt at behind
  split at behind
  · obtain ⟨used, split, run⟩ := behind
    exact ⟨used, _, _, _, split, run⟩
  · obtain ⟨used, split, run⟩ := behind
    exact ⟨used, _, _, _, split, run⟩

theorem advance_ends (tokens : List Token) : (advance tokens).Ends tokens := by
  refine Ends.of_behind fun front back reports here => ?_
  cases back with
  | nil =>
    have eof : kindAt tokens front.length = .eof := kindAt_behind here
    refine ⟨[], [], .ok (), reports, rfl, ?_⟩
    show some (Except.ok (), if kindAt tokens front.length = .eof then _ else _) = _
    rw [if_pos eof, List.append_nil]
  | cons t rest => exact ⟨[t], rest, .ok (), reports, rfl, run?_advance reports here⟩

theorem header_ends {kind : TokenKind} {position : Position} {header : Routine DesignUnit}
    (starts : header? source tokens kind position = some header) : header.Ends tokens := by
  rcases header?_follows source tokens kind position with ⟨no_routine, -⟩ | ⟨m, part, routine, -, follows⟩
  · rw [no_routine] at starts
    exact nomatch starts
  · rw [routine] at starts
    cases starts
    exact follows.ends

/-- The suffixes of a name stop at the first token that goes on with none. -/
theorem exists_run?_suffixes {front back : List Token} (name : String) (reports : List Diagnostic)
    (here : upToEof tokens = front ++ back) : ∃ used rest result reports', back = used ++ rest ∧
      (suffixes source tokens name).run? (.behind front reports) = some (result, .behind (front ++ used) reports') := by
  rcases head?_cases (·.kind = .symbol .dot) back with ⟨dot, rest, rfl, mark⟩ | no_dot
  · rcases head?_cases (isSuffix ·.kind) rest with ⟨t, rest, rfl, suffix⟩ | other
    · have later : upToEof tokens = front ++ [dot, t] ++ rest := by rw [here, List.append_assoc]; rfl
      obtain ⟨used, rest, result, reports', rfl, run⟩ :=
        exists_run?_suffixes (name ++ "." ++ spelled source t) reports later
      refine ⟨dot :: t :: used, rest, result, reports', rfl, ?_⟩
      rw [run?_suffixes_next name here mark suffix, run, List.append_assoc]
      rfl
    · have later := here.trans (List.append_cons front dot rest)
      exact ⟨[dot], rest, _, _, rfl, run?_suffixes_stop name here mark other⟩
  · exact ⟨[], back, _, _, rfl, by rw [run?_suffixes_end name here no_dot, List.append_nil]⟩
termination_by back.length

theorem suffixes_ends (source : Source) (tokens : List Token) (name : String) :
    (suffixes source tokens name).Ends tokens :=
  Ends.of_behind fun _ _ reports here => exists_run?_suffixes name reports here

theorem skip_ends (tokens : List Token) : (skip tokens).Ends tokens := by
  refine Ends.of_behind fun front back reports here => ?_
  obtain ⟨used, split, run⟩ := run?_skip reports here
  exact ⟨used, _, _, _, split, run⟩

/-- A turn before the end of the file gets further, and not past it. -/
theorem exists_turns (source : Source) {r : Reader} (before : r.index < stopIndex tokens) :
    ∃ unit? next, Turns source tokens r unit? next ∧ r.index < next.index ∧ next.index ≤ stopIndex tokens := by
  obtain ⟨front, back, here, place⟩ := Reader.exists_behind (Nat.le_of_lt before)
  cases back with
  | nil =>
    rw [List.append_nil] at here
    rw [← length_upToEof, here, place, index_behind] at before
    exact absurd before (Nat.lt_irrefl _)
  | cons first rest =>
    obtain ⟨used, s, next, split, taken, -, turns⟩ := run?_turn source r.reports here
    rw [place]
    refine ⟨_, _, turns, ?_, length_le_stopIndex here split⟩
    have := List.length_pos_iff.mpr taken
    rw [index_behind, index_behind, List.length_append]
    omega

theorem outline_ends (source : Source) (tokens : List Token) (units : List DesignUnit) :
    (outline source tokens units).Ends tokens := by
  refine Ends.of_behind fun front back reports here => ?_
  have run : (outline source tokens units).run? (.behind front reports) = _ := run?_outline units reports here
  rw [here] at run
  exact ⟨back, [], _, _, (List.append_nil back).symm, run⟩

end Routine

/-! ### How many reports there are -/

/-- Past a semicolon there is one less of them, unless there is nothing left. -/
theorem afterSemicolon_eq_nil_or_countP_lt (ts : List Token) : afterSemicolon ts = [] ∨
    (afterSemicolon ts).countP (·.kind = .symbol .semicolon) < ts.countP (·.kind = .symbol .semicolon) := by
  induction ts with
  | nil => exact Or.inl rfl
  | cons t rest ih =>
    by_cases mark : t.kind = .symbol .semicolon
    · rw [afterSemicolon_semicolon rest mark, List.countP_cons_of_pos (by simpa using mark)]
      exact Or.inr (Nat.lt_succ_self _)
    · rwa [afterSemicolon_cons rest mark, List.countP_cons_of_neg (by simpa using mark)]

/-- Behind a statement with a report the next one stands past a semicolon. -/
theorem statement_report_cases (source : Source) (atEnd : Span) (first : Token) (rest : List Token) :
    ∃ used after s next, first :: rest = used ++ after ∧ statement (spelled source) first rest = (s, next) ∧
      (next = after ∧ s.report? source atEnd = none ∨ next = afterSemicolon after) := by
  rcases statement_cases (spelled source) first rest with
    ⟨head, after, u, rfl, -, gives⟩ | ⟨used, expected, after, rfl, -, -, gives⟩ | ⟨-, -, gives⟩ |
    ⟨-, -, gives⟩
  · exact ⟨first :: head, after, _, _, rfl, gives, Or.inl ⟨rfl, rfl⟩⟩
  · exact ⟨first :: used, after, _, _, rfl, gives _ rfl, Or.inr rfl⟩
  · exact ⟨[], _, _, _, rfl, gives, Or.inr rfl⟩
  · exact ⟨[], _, _, _, rfl, gives, Or.inr rfl⟩

theorem length_reports_le (source : Source) (atEnd : Span) (ts : List Token) :
    ((statements (spelled source) ts).filterMap (·.report? source atEnd)).length ≤
      ts.countP (·.kind = .symbol .semicolon) + 1 := by
  cases ts with
  | nil => simp
  | cons first rest =>
    obtain ⟨used, after, s, next, split, gives, next_start⟩ := statement_report_cases source atEnd first rest
    have shorter : next.length < (first :: rest).length := by
      have less := length_statement_lt (spelled source) first rest
      rwa [gives] at less
    have later := length_reports_le source atEnd next
    have marks : after.countP (·.kind = .symbol .semicolon) ≤
        (first :: rest).countP (·.kind = .symbol .semicolon) := by
      rw [split, List.countP_append]
      exact Nat.le_add_left _ _
    rw [statements_cons, gives]
    dsimp only
    rcases next_start with ⟨rfl, silent⟩ | rfl
    · rw [List.filterMap_cons_none silent]
      exact Nat.le_trans later (Nat.succ_le_succ marks)
    · have one_more (ss : List Statement) : ((s :: ss).filterMap (·.report? source atEnd)).length ≤
          (ss.filterMap (·.report? source atEnd)).length + 1 := by
        rw [List.filterMap_cons]
        split <;> simp
      refine Nat.le_trans (one_more _) (Nat.succ_le_succ ?_)
      rcases afterSemicolon_eq_nil_or_countP_lt after with ended | fewer
      · rw [ended, statements_nil]
        exact Nat.zero_le _
      · exact Nat.le_trans later (Nat.le_trans fewer marks)
termination_by ts.length
decreasing_by exact shorter

/-- The reading of an outline ends, whatever the tokens are. Up to the end of the file, which is the first token of
that kind or the place behind the last token, every loop and every header comes to an end and not past that. Each turn
of the main loop gets further, also where a statement stops with a report. The whole loop gives the outline and the
reports of `parse`, with one report for each semicolon and one more at most. -/
theorem outline_reading_ends (source : Source) (tokens : List Token) :
    (∀ index, index ≤ stopIndex tokens → (kindAt tokens index = .eof ↔ index = stopIndex tokens)) ∧
      ((Routine.advance tokens).Ends tokens ∧ (Routine.skip tokens).Ends tokens ∧
        (∀ name, (Routine.suffixes source tokens name).Ends tokens) ∧
        (∀ selected names, (Routine.nameList source tokens selected names).Ends tokens) ∧
        (∀ kind position header, Routine.header? source tokens kind position = some header → header.Ends tokens) ∧
        ∀ units, (Routine.outline source tokens units).Ends tokens) ∧
      (∀ r : Reader, r.index < stopIndex tokens → ∃ unit? next, Routine.Turns source tokens r unit? next ∧
        (Routine.turn source tokens).run? r = some (.ok unit?, next) ∧
        r.index < next.index ∧ next.index ≤ stopIndex tokens) ∧
      ∃ units reports,
        (Routine.outline source tokens []).run? ⟨0, []⟩ = some (.ok units, ⟨stopIndex tokens, reports⟩) ∧
        parse source tokens = (⟨units, tokens.countP (·.kind ≠ .eof)⟩, reports) ∧
        reports.length ≤ tokens.countP (·.kind = .symbol .semicolon) + 1 := by
  refine ⟨fun index within => kindAt_eq_eof_iff within, ⟨Routine.advance_ends tokens, Routine.skip_ends tokens,
    Routine.suffixes_ends source tokens, fun selected names => (Routine.nameList_follows selected names).ends,
    fun kind position header starts => Routine.header_ends starts, Routine.outline_ends source tokens⟩, ?_, ?_⟩
  · intro r before
    obtain ⟨unit?, next, turns, further, within⟩ := Routine.exists_turns source before
    exact ⟨unit?, next, turns, turns.run?, further, within⟩
  · have whole : (Routine.outline source tokens []).run? (.behind [] []) = _ := Routine.run?_outline [] [] rfl
    rw [Reader.behind, Reader.behind, length_upToEof] at whole
    refine ⟨_, _, whole, rfl, Nat.le_trans (length_reports_le source _ (upToEof tokens)) ?_⟩
    exact Nat.succ_le_succ (List.takeWhile_sublist _).countP_le

/-- The statement of a closer takes no token, but the turn passes over it, though no end of the file stands behind. -/
theorem outline_reading_ends_at_closer : ∃ unit? next,
    Routine.Turns default [⟨.symbol .rightParen, default, default⟩] ⟨0, []⟩ unit? next ∧ next.index = 1 := by
  obtain ⟨-, -, turn, -⟩ := outline_reading_ends default [⟨.symbol .rightParen, default, default⟩]
  obtain ⟨unit?, next, turns, -, further, within⟩ := turn ⟨0, []⟩ (by decide)
  exact ⟨unit?, next, turns, Nat.le_antisymm within further⟩

end VhdlFrontEnd.Outline
