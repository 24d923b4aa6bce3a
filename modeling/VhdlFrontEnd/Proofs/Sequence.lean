import VhdlFrontEnd.Proofs.OutlineReading

/-!
# Statements one after the other

Tokens that end with a semicolon hold whole statements only: `statements_append` shows that what
follows them does not change how they are read, nor do they change how it is. So the outline of
both is the two outlines, however malformed each part is (`parse_append`).
-/

namespace VhdlFrontEnd.Outline

variable {spelling : Token → String}

/-- The tokens end with a semicolon, if there are any. -/
def EndWhole (tokens : List Token) : Prop := ∀ t ∈ tokens.getLast?, t.kind = .symbol .semicolon

theorem EndWhole.of_append {front rest : List Token} (whole : EndWhole (front ++ rest)) : EndWhole rest := by
  intro t last
  refine whole t ?_
  rw [List.getLast?_append, Option.mem_def.mp last]
  rfl

theorem EndWhole.exists_semicolon {tokens : List Token} (whole : EndWhole tokens) (some : tokens ≠ []) :
    ∃ t ∈ tokens, t.kind = .symbol .semicolon :=
  ⟨tokens.getLast some, List.getLast_mem some, whole _ (List.getLast?_eq_some_getLast some)⟩

/-- What follows a semicolon is not changed by what follows all of the tokens. -/
theorem exists_afterSemicolon {tokens : List Token} (mark : ∃ t ∈ tokens, t.kind = .symbol .semicolon) :
    ∃ front, tokens = front ++ afterSemicolon tokens ∧
      ∀ more, afterSemicolon (tokens ++ more) = afterSemicolon tokens ++ more := by
  induction tokens with
  | nil =>
    obtain ⟨t, mem, -⟩ := mark
    exact absurd mem List.not_mem_nil
  | cons t rest ih =>
    by_cases here : t.kind = .symbol .semicolon
    · refine ⟨[t], ?_, fun more => ?_⟩
      · rw [afterSemicolon_semicolon rest here]
        rfl
      · rw [List.cons_append, afterSemicolon_semicolon rest here, afterSemicolon_semicolon _ here]
    · have later : ∃ x ∈ rest, x.kind = .symbol .semicolon := by
        obtain ⟨x, mem, mark⟩ := mark
        rcases List.mem_cons.mp mem with rfl | mem
        · exact absurd mark here
        · exact ⟨x, mem, mark⟩
      obtain ⟨front, split, again⟩ := ih later
      refine ⟨t :: front, ?_, fun more => ?_⟩
      · rw [afterSemicolon_cons rest here, List.cons_append, ← split]
      · rw [List.cons_append, afterSemicolon_cons rest here, afterSemicolon_cons _ here, again]

/-- Two ways to look at statements that see no more of a malformed one than where it stops. -/
structure SeeSame {β : Type} (look look' : Statement → Option β) : Prop where
  malformed : ∀ {expected : Expected} {t : Token} {rest rest' : List Token},
    look (.malformed ⟨expected, t :: rest⟩) = look' (.malformed ⟨expected, t :: rest'⟩)
  unit : ∀ u, look (.unit u) = look' (.unit u)
  unexpected : ∀ t, look (.unexpected t) = look' (.unexpected t)
  skipped : look .skipped = look' .skipped

variable {β : Type} {look look' : Statement → Option β}

/-- Tokens that end whole hold a semicolon from each of them on, with whole statements behind it. -/
theorem afterSemicolon_append (front : List Token) {found : List Token} {t : Token}
    (whole : EndWhole (front ++ t :: found)) :
    (afterSemicolon (t :: found)).length < (front ++ t :: found).length ∧
      EndWhole (afterSemicolon (t :: found)) ∧
      ∀ more, afterSemicolon (t :: found ++ more) = afterSemicolon (t :: found) ++ more := by
  obtain ⟨skipped, passed, again⟩ :=
    exists_afterSemicolon (whole.of_append.exists_semicolon (List.cons_ne_nil t found))
  refine ⟨?_, ?_, again⟩
  · have shorter := length_afterSemicolon_lt t found
    rw [List.length_append]
    omega
  · rw [passed] at whole
    exact whole.of_append.of_append

/-- The first statement of tokens that end whole is not changed by what follows the tokens, and what
it leaves behind ends whole again. -/
theorem statement_append (spelling : Token → String) (same : SeeSame look look') (first : Token)
    (rest more : List Token) (whole : EndWhole (first :: rest)) :
    ∃ s s' next, statement spelling first (rest ++ more) = (s, next ++ more) ∧
      statement spelling first rest = (s', next) ∧ look s = look' s' ∧
      next.length < (first :: rest).length ∧ EndWhole next := by
  rcases statement_cases spelling first rest with
    ⟨head, after, u, rfl, text, gives⟩ | ⟨used, expected, after, rfl, fits, -, gives⟩ |
    ⟨-, closer, gives⟩ | ⟨other, closer, gives⟩
  · have joined := statement_of_headerText text (after ++ more)
    rw [← List.append_assoc] at joined
    rw [← List.cons_append] at whole
    refine ⟨_, _, after, joined, gives, same.unit u, ?_, whole.of_append⟩
    rw [List.length_cons, List.length_append]
    omega
  · cases after with
    | nil =>
      -- No header holds a semicolon before its end, so none goes wrong behind one.
      rw [List.append_nil] at whole
      obtain ⟨t, mem, mark⟩ := whole.exists_semicolon (List.cons_ne_nil first used)
      exact absurd mark (ends_nothing_of_begun (begun_of_fits fits) t mem).2
    | cons t found =>
      obtain ⟨shorter, ends, again⟩ := afterSemicolon_append (first :: used) whole
      have joined := gives (t :: found ++ more) rfl
      rw [← List.append_assoc, again] at joined
      exact ⟨_, _, _, joined, gives _ rfl, same.malformed, shorter, ends⟩
  · obtain ⟨shorter, ends, again⟩ := afterSemicolon_append [] whole
    have joined := statement_of_stray spelling closer (rest ++ more)
    exact ⟨_, _, _, joined.trans (congrArg _ (again more)), gives, same.unexpected first, shorter, ends⟩
  · obtain ⟨shorter, ends, again⟩ := afterSemicolon_append [] whole
    have joined := statement_of_other spelling other closer (rest ++ more)
    exact ⟨_, _, _, joined.trans (congrArg _ (again more)), gives, same.skipped, shorter, ends⟩

/-- The statements of tokens that end whole are not changed by what follows the tokens. -/
theorem statements_append (same : SeeSame look look') (tokens more : List Token) (whole : EndWhole tokens) :
    (statements spelling (tokens ++ more)).filterMap look =
      (statements spelling tokens).filterMap look' ++ (statements spelling more).filterMap look := by
  cases tokens with
  | nil => simp
  | cons first rest =>
    obtain ⟨s, s', next, joined, alone, seen, shorter, ends⟩ :=
      statement_append spelling same first rest more whole
    rw [List.cons_append, statements_cons, statements_cons, joined, alone, List.filterMap_cons,
      List.filterMap_cons, seen, statements_append same next more ends]
    cases look' s' <;> rfl
termination_by tokens.length
decreasing_by
  subst_vars
  exact shorter

theorem seeSame_unit? : SeeSame (·.unit?) (·.unit?) :=
  ⟨rfl, fun _ => rfl, fun _ => rfl, rfl⟩

theorem seeSame_report? (s : Source) (atEnd atEnd' : Span) :
    SeeSame (·.report? s atEnd) (·.report? s atEnd') :=
  ⟨rfl, fun _ => rfl, fun _ => rfl, rfl⟩

/-! ### The outline -/

theorem upToEof_of_clear {tokens : List Token} (clear : ∀ t ∈ tokens, t.kind ≠ .eof) :
    upToEof tokens = tokens := by
  have nothing_after := upToEof_append [] clear
  rwa [List.append_nil, upToEof_nil, List.append_nil] at nothing_after

theorem endSpan_append (source : Source) {front rest : List Token} (clear : ∀ t ∈ front, t.kind ≠ .eof)
    (some_rest : rest ≠ []) : endSpan source (front ++ rest) = endSpan source rest := by
  have none_in_front : front.find? (·.kind = .eof) = none := by simpa using clear
  have same_last : (front ++ rest).getLast? = rest.getLast? := by
    rw [List.getLast?_append, List.getLast?_eq_some_getLast some_rest]
    rfl
  rw [endSpan, endSpan, List.find?_append, none_in_front, Option.none_or, same_last]

/-- Behind a semicolon the outline starts anew: its units and reports are those of the tokens up to
there and those of the tokens from there on. -/
theorem parse_append (source : Source) (front rest : List Token) (clear : ∀ t ∈ front, t.kind ≠ .eof)
    (ends : front.getLast?.map (·.kind) = some (.symbol .semicolon)) :
    (parse source (front ++ rest)).1.units =
        (parse source front).1.units ++ (parse source rest).1.units ∧
      (parse source (front ++ rest)).1.tokenCount =
        (parse source front).1.tokenCount + (parse source rest).1.tokenCount ∧
      (parse source (front ++ rest)).2 = (parse source front).2 ++ (parse source rest).2 := by
  have whole : EndWhole front := by
    intro t last
    rw [Option.mem_def.mp last] at ends
    exact Option.some.inj ends
  have parts {β : Type} {look look' : Statement → Option β} (same : SeeSame look look') :
      (statements (spelled source) (upToEof (front ++ rest))).filterMap look =
        (statements (spelled source) (upToEof front)).filterMap look' ++
          (statements (spelled source) (upToEof rest)).filterMap look := by
    rw [upToEof_append rest clear, upToEof_of_clear clear]
    exact statements_append same front (upToEof rest) whole
  refine ⟨parts seeSame_unit?, List.countP_append, ?_⟩
  -- Only the statements of `rest` can meet the end, which is where `rest` ends.
  have reports := parts (seeSame_report? source (endSpan source (front ++ rest)) (endSpan source front))
  by_cases some_rest : rest = []
  · simp [some_rest, parse]
  · rw [endSpan_append source clear some_rest] at reports
    rw [parse, endSpan_append source clear some_rest]
    exact reports

/-- An entity without a name does not keep the one behind it from being read, nor does the missing
end of that one change where the first goes wrong. -/
theorem parse_append_of_malformed :
    let source : Source := ⟨.ofList [⟨.code, "entity;entity e".toList⟩], 1⟩
    let front : List Token :=
      [⟨.keyword .entity, ⟨1, 1⟩, ⟨0, 0, 6⟩⟩, ⟨.symbol .semicolon, ⟨1, 7⟩, ⟨0, 6, 1⟩⟩]
    let rest : List Token :=
      [⟨.keyword .entity, ⟨1, 8⟩, ⟨0, 7, 6⟩⟩, ⟨.identifier, ⟨1, 15⟩, ⟨0, 14, 1⟩⟩]
    (parse source front).2.map (·.span) = [⟨⟨1, 7⟩, 1⟩] ∧
      (parse source rest).2.map (·.span) = [⟨⟨1, 15⟩, 0⟩] ∧
      (parse source (front ++ rest)).2 = (parse source front).2 ++ (parse source rest).2 := by
  intro source front rest
  have broken : statements (spelled source) front = [.malformed ⟨.identifier, front.drop 1⟩] := by
    rw [statements_cons]
    exact congrArg (_ :: ·) statements_nil
  have cut_short : statements (spelled source) rest = [.malformed ⟨.token (.keyword .is), []⟩] := by
    rw [statements_cons]
    exact congrArg (_ :: ·) statements_nil
  refine ⟨?_, ?_, (parse_append source front rest (by decide) (by decide)).2.2⟩
  · exact congrArg (fun found : List Statement =>
      (found.filterMap (·.report? source (endSpan source front))).map (·.span)) broken
  · exact congrArg (fun found : List Statement =>
      (found.filterMap (·.report? source (endSpan source rest))).map (·.span)) cut_short

end VhdlFrontEnd.Outline
