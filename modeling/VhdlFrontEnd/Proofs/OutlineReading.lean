import VhdlFrontEnd.Proofs.Headers

/-!
# The outline follows the grammar

`statement_cases` says all that one statement can be. From it `parse_reads` shows that the outline
of any token sequence is a reading by the grammar, and that the grammar admits no other one.
-/

namespace VhdlFrontEnd.Outline

variable {spelling : Token → String} {source : Source}

/-! ### One statement -/

theorem header?_eq_none_iff {kind : TokenKind} {position : Position} :
    header? spelling kind position = none ↔ ∀ word ∈ headerWords, kind ≠ .keyword word := by
  unfold header?
  split
  case h_8 others =>
    refine ⟨fun _ word mem same => ?_, fun _ => rfl⟩
    simp only [headerWords, List.mem_cons, List.not_mem_nil, or_false] at mem
    rcases mem with rfl | rfl | rfl | rfl | rfl | rfl | rfl <;> simp_all
  all_goals simp [headerWords]

/-- A statement is a header, a header that goes wrong, a stray closer, or anything else. Where a
header goes wrong depends on nothing behind the token at which it does. -/
theorem statement_cases (spelling : Token → String) (first : Token) (rest : List Token) :
    (∃ head after u, rest = head ++ after ∧ HeaderText spelling (first :: head) u ∧
        statement spelling first rest = (.unit u, after)) ∨
      (∃ used expected after, rest = used ++ after ∧
        (∀ t, Expected.Fits expected t.kind → Continues spelling (first :: used) t) ∧
        (∀ t ∈ after.head?, ¬ Continues spelling (first :: used) t) ∧
        ∀ other, other.head? = after.head? → statement spelling first (used ++ other) =
          (.malformed ⟨expected, other⟩, afterSemicolon other)) ∨
      ((∀ word ∈ headerWords, first.kind ≠ .keyword word) ∧ isStrayCloser first.kind ∧
        statement spelling first rest = (.unexpected first, afterSemicolon (first :: rest))) ∨
      (∀ word ∈ headerWords, first.kind ≠ .keyword word) ∧ ¬ isStrayCloser first.kind ∧
        statement spelling first rest = (.skipped, afterSemicolon (first :: rest)) := by
  unfold statement
  cases starts : header? spelling first.kind first.position with
  | some header =>
    dsimp only
    cases reads : header rest with
    | ok found =>
      obtain ⟨u, after⟩ := found
      obtain ⟨head, rfl, text⟩ := (header_recognises starts).sound reads
      exact Or.inl ⟨head, after, u, rfl, text, rfl⟩
    | error e =>
      obtain ⟨used, split, fits, stops, again⟩ := (header_recognises starts).deviates reads
      refine Or.inr (Or.inl ⟨used, e.expected, e.rest, split, fits, stops, fun other same => ?_⟩)
      rw [again other same]
  | none =>
    have other := header?_eq_none_iff.mp starts
    by_cases closer : isStrayCloser first.kind
    · exact Or.inr (Or.inr (Or.inl ⟨other, closer, if_pos closer⟩))
    · exact Or.inr (Or.inr (Or.inr ⟨other, closer, if_neg closer⟩))

theorem word_of_headerText {first : Token} {used : List Token} {u : DesignUnit}
    (text : HeaderText spelling (first :: used) u) : ∃ word ∈ headerWords, first.kind = .keyword word := by
  rcases headerText_cons_iff.mp text with ⟨form, mem, word, -⟩ | ⟨form, mem, word, -⟩ | ⟨word, -⟩ |
    ⟨form, mem, word, -⟩
  · refine ⟨_, ?_, word⟩
    have : ∀ form ∈ itemForms, form.1 ∈ headerWords := by decide
    exact this form mem
  · refine ⟨_, ?_, word⟩
    have : ∀ form ∈ namedForms, form.1 ∈ headerWords := by decide
    exact this form mem
  · exact ⟨_, by decide, word⟩
  · refine ⟨_, ?_, word⟩
    have : ∀ form ∈ secondaryForms, form.1 ∈ headerWords := by decide
    exact this form mem

theorem statement_of_headerText {first : Token} {used : List Token} {u : DesignUnit}
    (text : HeaderText spelling (first :: used) u) (rest : List Token) :
    statement spelling first (used ++ rest) = (.unit u, rest) := by
  unfold statement
  cases starts : header? spelling first.kind first.position with
  | none =>
    obtain ⟨word, mem, same⟩ := word_of_headerText text
    exact absurd same (header?_eq_none_iff.mp starts word mem)
  | some header =>
    dsimp only
    rw [(header_recognises starts).complete text rest]

theorem Expected.exists_fits (expected : Expected) : ∃ t : Token, expected.Fits t.kind := by
  cases expected with
  | token kind => exact ⟨⟨kind, default, default⟩, rfl⟩
  | identifier => exact ⟨⟨.identifier, default, default⟩, rfl⟩
  | suffix => exact ⟨⟨.identifier, default, default⟩, rfl⟩

theorem statement_of_begun {first : Token} {before rest : List Token}
    (begun : Begun spelling (first :: before))
    (stops : ∀ t ∈ rest.head?, ¬ Continues spelling (first :: before) t) :
    ∃ expected, statement spelling first (before ++ rest) =
      (.malformed ⟨expected, rest⟩, afterSemicolon rest) := by
  obtain ⟨t, behind, whole, text⟩ := begun
  have text : HeaderText spelling (first :: (before ++ t :: behind)) whole := text
  rcases statement_cases spelling first (before ++ rest) with
    ⟨head, after, u, split, short, -⟩ | ⟨used, expected, after, split, fits, wrong, gives⟩ |
    ⟨other, -⟩ | ⟨other, -⟩
  · -- No header ends within the start of another one, and none goes on with what stands here.
    rcases List.append_eq_append_iff.mp split with ⟨more, rfl, rfl⟩ | ⟨more, rfl, rfl⟩
    · cases more with
      | nil =>
        rw [List.append_nil] at short
        have again := statement_of_headerText short (t :: behind)
        rw [← List.append_nil (before ++ t :: behind), statement_of_headerText text [],
          Prod.mk.injEq] at again
        exact nomatch again.2
      | cons x more => exact absurd ⟨more, u, short⟩ (stops x rfl)
    · have again := statement_of_headerText short (more ++ t :: behind)
      rw [← List.append_assoc, ← List.append_nil (head ++ more ++ t :: behind),
        statement_of_headerText text [], Prod.mk.injEq] at again
      exact absurd again.2.symm (by simp)
  · rcases List.append_eq_append_iff.mp split with ⟨more, rfl, rfl⟩ | ⟨more, rfl, rfl⟩
    · cases more with
      | nil => exact ⟨expected, by simpa using gives _ rfl⟩
      | cons x more =>
        obtain ⟨y, fit⟩ := expected.exists_fits
        obtain ⟨behind, u, longer⟩ := fits y fit
        refine absurd ⟨more ++ y :: behind, u, ?_⟩ (stops x rfl)
        simpa using longer
    · cases more with
      | nil => exact ⟨expected, by simpa using gives _ rfl⟩
      | cons x more => exact absurd ⟨more ++ t :: behind, whole, by simpa using text⟩ (wrong x rfl)
  · obtain ⟨word, mem, same⟩ := word_of_headerText text
    exact absurd same (other word mem)
  · obtain ⟨word, mem, same⟩ := word_of_headerText text
    exact absurd same (other word mem)

theorem statement_of_stray (spelling : Token → String) {first : Token}
    (closer : isStrayCloser first.kind) (rest : List Token) :
    statement spelling first rest = (.unexpected first, afterSemicolon (first :: rest)) := by
  rcases statement_cases spelling first rest with
    ⟨head, after, u, split, text, -⟩ | ⟨used, expected, after, split, fits, -⟩ | ⟨-, -, gives⟩ |
    ⟨-, other, -⟩
  · obtain ⟨word, -, same⟩ := word_of_headerText text
    rw [same] at closer
    exact nomatch closer
  · obtain ⟨t, fit⟩ := expected.exists_fits
    obtain ⟨behind, u, text⟩ := fits t fit
    obtain ⟨word, -, same⟩ := word_of_headerText text
    rw [same] at closer
    exact nomatch closer
  · exact gives
  · exact absurd closer other

theorem statement_of_other (spelling : Token → String) {first : Token}
    (other : ∀ word ∈ headerWords, first.kind ≠ .keyword word) (closer : ¬ isStrayCloser first.kind)
    (rest : List Token) :
    statement spelling first rest = (.skipped, afterSemicolon (first :: rest)) := by
  unfold statement
  rw [header?_eq_none_iff.mpr other, if_neg closer]

/-! ### Up to the end of the file -/

/-- The tokens before the end of the file. -/
def upToEof (tokens : List Token) : List Token := tokens.takeWhile (·.kind ≠ .eof)

@[simp] theorem upToEof_nil : upToEof [] = [] := rfl

theorem upToEof_eof {t : Token} (rest : List Token) (eof : t.kind = .eof) :
    upToEof (t :: rest) = [] := by
  simp [upToEof, eof]

theorem upToEof_cons {t : Token} (rest : List Token) (other : t.kind ≠ .eof) :
    upToEof (t :: rest) = t :: upToEof rest := by
  simp [upToEof, other]

theorem upToEof_append {front : List Token} (rest : List Token) (clear : ∀ t ∈ front, t.kind ≠ .eof) :
    upToEof (front ++ rest) = front ++ upToEof rest := by
  induction front with
  | nil => rfl
  | cons t front ih =>
    obtain ⟨other, clear⟩ := List.forall_mem_cons.mp clear
    rw [List.cons_append, upToEof_cons _ other, ih clear, List.cons_append]

theorem mem_head?_of_upToEof {tokens : List Token} {t : Token} (start : t ∈ (upToEof tokens).head?) :
    t ∈ tokens.head? := by
  cases tokens with
  | nil => exact start
  | cons first rest =>
    by_cases eof : first.kind = .eof
    · rw [upToEof_eof rest eof] at start
      exact nomatch start
    · rwa [upToEof_cons rest eof] at start

/-- A split of the tokens before the end of the file is one of all tokens. -/
theorem exists_of_upToEof_eq_append {tokens front after : List Token}
    (split : upToEof tokens = front ++ after) : ∃ rest, tokens = front ++ rest ∧
      upToEof rest = after ∧ ∀ t ∈ front, t.kind ≠ .eof := by
  induction front generalizing tokens with
  | nil => exact ⟨tokens, rfl, split, nofun⟩
  | cons t front ih =>
    cases tokens with
    | nil => exact nomatch split
    | cons first rest =>
      by_cases eof : first.kind = .eof
      · rw [upToEof_eof rest eof] at split
        exact nomatch split
      · rw [upToEof_cons rest eof] at split
        obtain ⟨rfl, tail⟩ := List.cons.inj split
        obtain ⟨rest, rfl, same, clear⟩ := ih tail
        exact ⟨rest, rfl, same, List.forall_mem_cons.mpr ⟨eof, clear⟩⟩

/-! ### Past a semicolon -/

theorem afterSemicolon_semicolon {t : Token} (rest : List Token) (mark : t.kind = .symbol .semicolon) :
    afterSemicolon (t :: rest) = rest := by
  simp [afterSemicolon, mark]

theorem afterSemicolon_cons {t : Token} (rest : List Token) (other : t.kind ≠ .symbol .semicolon) :
    afterSemicolon (t :: rest) = afterSemicolon rest := by
  simp [afterSemicolon, other]

theorem exists_skipsTo (tokens : List Token) : ∃ next, SkipsTo tokens next := by
  induction tokens with
  | nil => exact ⟨[], .nil⟩
  | cons t rest ih =>
    by_cases mark : t.kind = .symbol .semicolon
    · exact ⟨rest, .semicolon mark⟩
    by_cases eof : t.kind = .eof
    · exact ⟨t :: rest, .eof eof⟩
    obtain ⟨next, skips⟩ := ih
    exact ⟨next, .other mark eof skips⟩

theorem SkipsTo.after_upToEof {tokens next : List Token} (skips : SkipsTo tokens next) :
    afterSemicolon (upToEof tokens) = upToEof next := by
  induction skips with
  | semicolon mark => rw [upToEof_cons _ (by simp [mark]), afterSemicolon_semicolon _ mark]
  | other mark eof _ ih => rw [upToEof_cons _ eof, afterSemicolon_cons _ mark, ih]
  | eof eof => rw [upToEof_eof _ eof]; rfl
  | nil => rfl

/-- What is passed over holds no end of the file, and is no less than a first token that is none. -/
theorem SkipsTo.exists_front {tokens next : List Token} (skips : SkipsTo tokens next) :
    ∃ front, tokens = front ++ next ∧ (∀ t ∈ front, t.kind ≠ .eof) ∧
      ∀ t ∈ tokens.head?, t.kind ≠ .eof → front ≠ [] := by
  induction skips with
  | semicolon mark => exact ⟨[_], rfl, by simp [mark], fun _ _ _ => List.cons_ne_nil _ _⟩
  | other _ eof _ ih =>
    obtain ⟨front, rfl, clear, -⟩ := ih
    exact ⟨_ :: front, rfl, List.forall_mem_cons.mpr ⟨eof, clear⟩, fun _ _ _ => List.cons_ne_nil _ _⟩
  | eof eof => exact ⟨[], rfl, nofun, by simp [eof]⟩
  | nil => exact ⟨[], rfl, nofun, nofun⟩

/-! ### Where the tokens end -/

theorem endSpan_eof {front : List Token} {t : Token} (rest : List Token)
    (clear : ∀ x ∈ front, x.kind ≠ .eof) (eof : t.kind = .eof) :
    endSpan source (front ++ t :: rest) = tokenSpan source t := by
  have found : (front ++ t :: rest).find? (·.kind = .eof) = some t := by
    rw [List.find?_append, List.find?_eq_none.mpr (by simpa using clear)]
    simp [eof]
  rw [endSpan, found]
  rfl

theorem endSpan_last {front : List Token} {last : Token} (clear : ∀ x ∈ front, x.kind ≠ .eof)
    (other : last.kind ≠ .eof) : endSpan source (front ++ [last]) = .point last.position := by
  have missing : (front ++ [last]).find? (·.kind = .eof) = none := by
    rw [List.find?_eq_none]
    simpa [or_imp, forall_and] using ⟨clear, other⟩
  rw [endSpan, missing]
  simp

/-- The report about a token is the same whether or not it is the end of the file. -/
theorem expectedReport_found {front : List Token} (t : Token) (rest : List Token)
    (expected : Expected) (clear : ∀ x ∈ front, x.kind ≠ .eof) :
    expectedReport source (endSpan source (front ++ t :: rest)) ⟨expected, upToEof (t :: rest)⟩ =
      missingReport expected t.kind (tokenSpan source t) := by
  by_cases eof : t.kind = .eof
  · rw [upToEof_eof rest eof, endSpan_eof rest clear eof, eof]
    rfl
  · have no_fallback : (t.kind == .eof) = false := by simpa using eof
    rw [upToEof_cons rest eof, missingReport, no_fallback]
    rfl

theorem expectedReport_last {front : List Token} {last : Token} (expected : Expected)
    (clear : ∀ x ∈ front, x.kind ≠ .eof) (other : last.kind ≠ .eof) :
    expectedReport source (endSpan source (front ++ [last])) ⟨expected, []⟩ =
      missingReport expected .eof (.point last.position) := by
  rw [endSpan_last clear other]
  rfl

/-! ### All statements -/

/-- The reports without their words. -/
def unworded (ds : List Diagnostic) : List Diagnostic := ds.map ({ · with message := "" })

@[simp] theorem statements_nil : statements spelling [] = [] := by
  rw [statements]

theorem statements_cons (first : Token) (rest : List Token) : statements spelling (first :: rest) =
    (statement spelling first rest).1 :: statements spelling (statement spelling first rest).2 := by
  rw [statements]

/-- The units of what is left. -/
def unitsAhead (source : Source) (tokens : List Token) : List DesignUnit :=
  (statements (spelled source) (upToEof tokens)).filterMap (·.unit?)

/-- The reports about what is left, where all tokens end at the span `atEnd`. -/
def reportsAhead (source : Source) (atEnd : Span) (tokens : List Token) : List Diagnostic :=
  (statements (spelled source) (upToEof tokens)).filterMap (·.report? source atEnd)

variable {atEnd : Span}

@[simp] theorem unitsAhead_nil : unitsAhead source [] = [] := by
  simp [unitsAhead]

@[simp] theorem reportsAhead_nil : reportsAhead source atEnd [] = [] := by
  simp [reportsAhead]

theorem unitsAhead_eof {t : Token} (rest : List Token) (eof : t.kind = .eof) :
    unitsAhead source (t :: rest) = [] := by
  simp [unitsAhead, upToEof_eof rest eof]

theorem reportsAhead_eof {t : Token} (rest : List Token) (eof : t.kind = .eof) :
    reportsAhead source atEnd (t :: rest) = [] := by
  simp [reportsAhead, upToEof_eof rest eof]

variable {first : Token} {rest next : List Token} {s : Statement}

theorem unitsAhead_cons (other : first.kind ≠ .eof)
    (gives : statement (spelled source) first (upToEof rest) = (s, upToEof next)) :
    unitsAhead source (first :: rest) = s.unit?.toList ++ unitsAhead source next := by
  unfold unitsAhead
  rw [upToEof_cons rest other, statements_cons, gives]
  cases s <;> rfl

theorem reportsAhead_cons (other : first.kind ≠ .eof)
    (gives : statement (spelled source) first (upToEof rest) = (s, upToEof next)) :
    reportsAhead source atEnd (first :: rest) =
      (s.report? source atEnd).toList ++ reportsAhead source atEnd next := by
  unfold reportsAhead
  rw [upToEof_cons rest other, statements_cons, gives]
  cases s <;> rfl

theorem begun_of_fits {before : List Token} {expected : Expected}
    (fits : ∀ t, expected.Fits t.kind → Continues spelling before t) : Begun spelling before := by
  obtain ⟨t, fit⟩ := expected.exists_fits
  exact ⟨t, fits t fit⟩

theorem not_continues_of_eof {before : List Token} {t : Token} (eof : t.kind = .eof) :
    ¬ Continues spelling before t := by
  rintro ⟨after, u, text⟩
  exact text.ne_eof t (by simp) eof

theorem reads_malformed {front used found : List Token} {expected : Expected}
    (clear : ∀ t ∈ front, t.kind ≠ .eof)
    (fits : ∀ t, expected.Fits t.kind → Continues (spelled source) (first :: used) t)
    (stops : ∀ t ∈ (upToEof found).head?, ¬ Continues (spelled source) (first :: used) t)
    (skips : SkipsTo found next)
    (reads : Reads source next (unitsAhead source next)
      (reportsAhead source (endSpan source (front ++ (first :: used ++ found))) next)) :
    Reads source (first :: used ++ found) (unitsAhead source next)
      (expectedReport source (endSpan source (front ++ (first :: used ++ found)))
          ⟨expected, upToEof found⟩ ::
        reportsAhead source (endSpan source (front ++ (first :: used ++ found))) next) := by
  have begun := begun_of_fits fits
  have here : ∀ t ∈ front ++ first :: used, t.kind ≠ .eof :=
    List.forall_mem_append.mpr ⟨clear, fun t mem => (ends_nothing_of_begun begun t mem).1⟩
  cases found with
  | nil =>
    cases skips
    rcases List.eq_nil_or_concat (first :: used) with empty | ⟨before, last, split⟩
    · exact nomatch empty
    rw [List.concat_eq_append] at split
    rw [split] at begun fits here ⊢
    rw [← List.append_assoc] at here
    obtain ⟨here, stands⟩ := List.forall_mem_append.mp here
    rw [List.append_nil, unitsAhead_nil, reportsAhead_nil, ← List.append_assoc]
    refine .unfinished begun ⟨expected, fits, ?_⟩
    exact expectedReport_last expected here (stands last (List.mem_singleton_self last))
  | cons t rest =>
    have other : ¬ Continues (spelled source) (first :: used) t := by
      by_cases eof : t.kind = .eof
      · exact not_continues_of_eof eof
      · exact stops t (by rw [upToEof_cons rest eof]; rfl)
    refine .malformed begun other ⟨expected, fits, ?_⟩ skips reads
    rw [← List.append_assoc, expectedReport_found t rest expected here]

/-- The outline of what is left is a reading of it. -/
theorem reads_ahead (front tokens : List Token) (clear : ∀ t ∈ front, t.kind ≠ .eof) :
    Reads source tokens (unitsAhead source tokens)
      (reportsAhead source (endSpan source (front ++ tokens)) tokens) := by
  cases tokens with
  | nil =>
    rw [unitsAhead_nil, reportsAhead_nil]
    exact .nil
  | cons first rest =>
    by_cases eof : first.kind = .eof
    · rw [unitsAhead_eof rest eof, reportsAhead_eof rest eof]
      exact .eof eof
    -- Each statement takes some token, so the rest is a reading by induction on how much is left.
    have further {used next : List Token} (split : first :: rest = used ++ next)
        (here : ∀ t ∈ used, t.kind ≠ .eof) (started : used ≠ []) :
        Reads source next (unitsAhead source next)
          (reportsAhead source (endSpan source (front ++ first :: rest)) next) := by
      have shorter : next.length < (first :: rest).length := by
        have := List.length_pos_iff.mpr started
        rw [split, List.length_append]
        omega
      rw [split, ← List.append_assoc]
      exact reads_ahead (front ++ used) next (List.forall_mem_append.mpr ⟨clear, here⟩)
    rcases statement_cases (spelled source) first (upToEof rest) with
      ⟨head, after, u, split, text, gives⟩ | ⟨used, expected, after, split, fits, stops, gives⟩ |
      ⟨-, closer, gives⟩ | ⟨other, closer, gives⟩
    · obtain ⟨next, rfl, rfl, -⟩ := exists_of_upToEof_eq_append split
      rw [unitsAhead_cons eof gives, reportsAhead_cons eof gives]
      exact .header text (further rfl text.ne_eof (List.cons_ne_nil _ _))
    · obtain ⟨found, rfl, rfl, -⟩ := exists_of_upToEof_eq_append split
      have begun := begun_of_fits fits
      have here : ∀ t ∈ first :: used, t.kind ≠ .eof := fun t mem => (ends_nothing_of_begun begun t mem).1
      obtain ⟨next, skips⟩ := exists_skipsTo found
      obtain ⟨skipped, rfl, passed, -⟩ := skips.exists_front
      have gives := gives _ rfl
      rw [← split, skips.after_upToEof] at gives
      rw [unitsAhead_cons eof gives, reportsAhead_cons eof gives]
      exact reads_malformed clear fits stops skips (further
        (List.append_assoc (first :: used) skipped next).symm
        (List.forall_mem_append.mpr ⟨here, passed⟩) (by simp))
    · obtain ⟨next, skips⟩ := exists_skipsTo (first :: rest)
      obtain ⟨skipped, split, passed, started⟩ := skips.exists_front
      rw [← upToEof_cons rest eof, skips.after_upToEof] at gives
      rw [unitsAhead_cons eof gives, reportsAhead_cons eof gives]
      exact .unexpected closer skips (further split passed (started first rfl eof))
    · obtain ⟨next, skips⟩ := exists_skipsTo (first :: rest)
      obtain ⟨skipped, split, passed, started⟩ := skips.exists_front
      rw [← upToEof_cons rest eof, skips.after_upToEof] at gives
      rw [unitsAhead_cons eof gives, reportsAhead_cons eof gives]
      exact .skipped other closer eof skips (further split passed (started first rfl eof))
termination_by tokens.length
decreasing_by exact shorter

/-- A header that goes wrong gives one report and no unit. -/
theorem ahead_of_begun {before found : List Token} (started : before ≠ [])
    (begun : Begun (spelled source) before)
    (other : ∀ t ∈ found.head?, ¬ Continues (spelled source) before t) (skips : SkipsTo found next) :
    unitsAhead source (before ++ found) = unitsAhead source next ∧
      ∃ expected, reportsAhead source atEnd (before ++ found) =
        expectedReport source atEnd ⟨expected, upToEof found⟩ :: reportsAhead source atEnd next := by
  obtain ⟨first, before, rfl⟩ := List.exists_cons_of_ne_nil started
  have ⟨eof, here⟩ := List.forall_mem_cons.mp fun t mem => (ends_nothing_of_begun begun t mem).1
  have stops : ∀ t ∈ (upToEof found).head?, ¬ Continues (spelled source) (first :: before) t :=
    fun t start => other t (mem_head?_of_upToEof start)
  obtain ⟨expected, gives⟩ := statement_of_begun begun stops
  rw [← upToEof_append _ here, skips.after_upToEof] at gives
  rw [List.cons_append, unitsAhead_cons eof gives, reportsAhead_cons eof gives]
  exact ⟨rfl, expected, rfl⟩

/-- Any reading gives the outline's units, and its reports but for their words. -/
theorem ahead_of_reads {tokens : List Token} {us : List DesignUnit} {ds : List Diagnostic}
    (reads : Reads source tokens us ds) (front : List Token) (clear : ∀ t ∈ front, t.kind ≠ .eof) :
    us = unitsAhead source tokens ∧
      unworded ds = unworded (reportsAhead source (endSpan source (front ++ tokens)) tokens) := by
  -- `front` grows by what each statement takes, so that the span at the end stays that of all tokens.
  induction reads generalizing front with
  | nil => simp
  | @eof t rest eof =>
    rw [unitsAhead_eof rest eof, reportsAhead_eof rest eof]
    exact ⟨rfl, rfl⟩
  | @header head u rest us ds text _ ih =>
    obtain ⟨first, used, rfl⟩ := List.exists_cons_of_ne_nil text.ne_nil
    obtain ⟨eof, here⟩ := List.forall_mem_cons.mp text.ne_eof
    obtain ⟨units, reports⟩ := ih (front ++ first :: used) (List.forall_mem_append.mpr ⟨clear, text.ne_eof⟩)
    have gives := statement_of_headerText text (upToEof rest)
    rw [← upToEof_append rest here] at gives
    rw [List.append_assoc] at reports
    rw [List.cons_append, unitsAhead_cons eof gives, reportsAhead_cons eof gives]
    exact ⟨congrArg (u :: ·) units, reports⟩
  | @malformed first before t rest next d us ds begun other missing skips _ ih =>
    have here : ∀ x ∈ front ++ first :: before, x.kind ≠ .eof := List.forall_mem_append.mpr
      ⟨clear, fun x mem => (ends_nothing_of_begun begun x mem).1⟩
    obtain ⟨skipped, split, passed, -⟩ := skips.exists_front
    obtain ⟨units, reports⟩ := ih (front ++ first :: before ++ skipped)
      (List.forall_mem_append.mpr ⟨here, passed⟩)
    rw [List.append_assoc, ← split] at reports
    obtain ⟨_, -, rfl⟩ := missing
    obtain ⟨same_units, expected, same_reports⟩ := ahead_of_begun (List.cons_ne_nil first before)
      begun (by simpa using other) skips
    rw [same_units, same_reports, ← List.append_assoc, expectedReport_found t rest expected here]
    exact ⟨units, congrArg (_ :: ·) reports⟩
  | @unfinished before last d begun missing =>
    obtain ⟨_, -, rfl⟩ := missing
    -- The tokens just stop: the report stands at the last of them, as if they ended there.
    have here : ∀ x ∈ front ++ before ++ [last], x.kind ≠ .eof := by
      rw [List.append_assoc]
      exact List.forall_mem_append.mpr ⟨clear, fun x mem => (ends_nothing_of_begun begun x mem).1⟩
    obtain ⟨here, stands⟩ := List.forall_mem_append.mp here
    obtain ⟨same_units, expected, same_reports⟩ := ahead_of_begun (by simp) begun (by simp) SkipsTo.nil
    rw [List.append_nil] at same_units same_reports
    rw [same_units, same_reports, ← List.append_assoc, unitsAhead_nil, reportsAhead_nil,
      upToEof_nil, expectedReport_last expected here (stands last (List.mem_singleton_self last))]
    exact ⟨rfl, rfl⟩
  | @unexpected first rest next us ds closer skips _ ih =>
    have eof := ne_eof_of_isStrayCloser closer
    obtain ⟨skipped, split, passed, -⟩ := skips.exists_front
    obtain ⟨units, reports⟩ := ih (front ++ skipped) (List.forall_mem_append.mpr ⟨clear, passed⟩)
    have gives := statement_of_stray (spelled source) closer (upToEof rest)
    rw [← upToEof_cons rest eof, skips.after_upToEof] at gives
    rw [List.append_assoc, ← split] at reports
    rw [unitsAhead_cons eof gives, reportsAhead_cons eof gives]
    exact ⟨units, congrArg (_ :: ·) reports⟩
  | @skipped first rest next us ds other closer eof skips _ ih =>
    obtain ⟨skipped, split, passed, -⟩ := skips.exists_front
    obtain ⟨units, reports⟩ := ih (front ++ skipped) (List.forall_mem_append.mpr ⟨clear, passed⟩)
    have gives := statement_of_other (spelled source) other closer (upToEof rest)
    rw [← upToEof_cons rest eof, skips.after_upToEof] at gives
    rw [List.append_assoc, ← split] at reports
    rw [unitsAhead_cons eof gives, reportsAhead_cons eof gives]
    exact ⟨units, reports⟩

/-! ### The outline of all tokens -/

/-- The outline is a reading by the grammar, and the only one: any reading gives the same units and,
up to what a message names as missing, the same reports. -/
theorem parse_reads (source : Source) (tokens : List Token) :
    Reads source tokens (parse source tokens).1.units (parse source tokens).2 ∧
      ∀ us ds, Reads source tokens us ds →
        us = (parse source tokens).1.units ∧ unworded ds = unworded (parse source tokens).2 :=
  ⟨reads_ahead [] tokens nofun, fun _ _ reads => ahead_of_reads reads [] nofun⟩

/-- Behind a whole header another one goes wrong at a reserved word. -/
theorem parse_reads_of_missing_name :
    let source : Source := ⟨Arena.ofList [⟨.code, "entity e is use library".toList⟩], 1⟩
    let tokens : List Token :=
      [⟨.keyword .entity, ⟨1, 1⟩, ⟨0, 0, 6⟩⟩, ⟨.identifier, ⟨1, 8⟩, ⟨0, 7, 1⟩⟩,
        ⟨.keyword .is, ⟨1, 10⟩, ⟨0, 9, 2⟩⟩, ⟨.keyword .use, ⟨1, 13⟩, ⟨0, 12, 3⟩⟩,
        ⟨.keyword .library, ⟨1, 17⟩, ⟨0, 16, 7⟩⟩, ⟨.eof, ⟨1, 24⟩, ⟨0, 23, 0⟩⟩]
    let entity : DesignUnit := { kind := .entity, name? := some "e", position := ⟨1, 1⟩ }
    let missing := missingReport .identifier (.keyword .library) ⟨⟨1, 17⟩, 7⟩
    Reads source tokens [entity] [missing] ∧
      ∀ us ds, Reads source tokens us ds → us = [entity] ∧ unworded ds = unworded [missing] := by
  intro source tokens entity missing
  have outline : parse source tokens = (⟨[entity], 5⟩, [missing]) := by decide +kernel
  have reads := parse_reads source tokens
  rwa [outline] at reads

end VhdlFrontEnd.Outline
