import Mathlib.Data.List.Induction
import VhdlFrontEnd.FrontEnd
import VhdlFrontEnd.Proofs.OutlineReading

/-!
# The names of use clauses

A use clause or a reference to contexts lists names, each an identifier with any number of suffixes behind it.
`selected_names_iff` shows that it gives a unit that holds all its names, those without a suffix too, and that
only where it has another form something else is reported to be expected. So a name without a suffix is never
refused.
-/

namespace VhdlFrontEnd.Outline

variable {spelling : Token → String}

/-! ### Where statements start -/

/-- A statement starts with the tokens: it is the first one, or the one before it ends there. -/
inductive StatementAt (spelling : Token → String) (tokens : List Token) : List Token → Prop where
  | first : StatementAt spelling tokens tokens
  | next {t rest} : StatementAt spelling tokens (t :: rest) →
      StatementAt spelling tokens (statement spelling t rest).2

theorem StatementAt.behind {t : Token} {rest found : List Token}
    (starts : StatementAt spelling (statement spelling t rest).2 found) :
    StatementAt spelling (t :: rest) found := by
  induction starts with
  | first => exact .next .first
  | next _ ih => exact .next ih

theorem StatementAt.mem_statements {tokens found : List Token} {s : Statement}
    (starts : StatementAt spelling tokens found) (mem : s ∈ statements spelling found) :
    s ∈ statements spelling tokens := by
  induction starts with
  | first => exact mem
  | @next t rest _ ih =>
    apply ih
    rw [statements_cons]
    exact List.mem_cons_of_mem _ mem

theorem mem_statements_iff {tokens : List Token} {s : Statement} : s ∈ statements spelling tokens ↔
    ∃ t rest, StatementAt spelling tokens (t :: rest) ∧ (statement spelling t rest).1 = s := by
  constructor
  · intro mem
    fun_induction statements spelling tokens with
    | case1 => exact absurd mem List.not_mem_nil
    | case2 first rest ih =>
      rcases List.mem_cons.mp mem with rfl | mem
      · exact ⟨first, rest, .first, rfl⟩
      · obtain ⟨t, found, starts, gives⟩ := ih mem
        exact ⟨t, found, starts.behind, gives⟩
  · rintro ⟨t, rest, starts, rfl⟩
    apply starts.mem_statements
    rw [statements_cons]
    exact List.mem_cons_self

section

variable {source : Source} {tokens : List Token}

theorem mem_units_iff {u : DesignUnit} : u ∈ (parse source tokens).1.units ↔ ∃ t rest,
    StatementAt (spelled source) (upToEof tokens) (t :: rest) ∧
      (statement (spelled source) t rest).1 = .unit u := by
  have is_unit : ∀ s : Statement, s.unit? = some u ↔ s = .unit u := by
    intro s
    cases s <;> simp [Statement.unit?]
  show u ∈ (statements (spelled source) (upToEof tokens)).filterMap (·.unit?) ↔ _
  simp only [List.mem_filterMap, is_unit, exists_eq_right]
  exact mem_statements_iff

theorem mem_reports {t : Token} {rest : List Token} {d : Diagnostic}
    (starts : StatementAt (spelled source) (upToEof tokens) (t :: rest))
    (gives : (statement (spelled source) t rest).1.report? source (endSpan source tokens) = some d) :
    d ∈ (parse source tokens).2 :=
  List.mem_filterMap.mpr ⟨_, mem_statements_iff.mpr ⟨t, rest, starts, rfl⟩, gives⟩

end

/-! ### Names as they are written -/

/-- An identifier, and behind it a point and a suffix any number of times. -/
structure WrittenName where
  head : Token
  suffixes : List (Token × Token)
  head_kind : head.kind = .identifier
  suffixes_kind : ∀ pair ∈ suffixes, pair.1.kind = .symbol .dot ∧ isSuffix pair.2.kind

namespace WrittenName

def tokens (n : WrittenName) : List Token := n.head :: n.suffixes.flatMap fun pair => [pair.1, pair.2]

/-- The name as a unit holds it. -/
def text (spelling : Token → String) (n : WrittenName) : String :=
  n.suffixes.foldl (fun name pair => name ++ "." ++ spelling pair.2) (spelling n.head)

/-- There is a suffix behind the identifier. -/
def IsSelected (n : WrittenName) : Prop := n.suffixes ≠ []

end WrittenName

theorem nameText_iff {ts : List Token} {name : String} : NameText spelling true ts name ↔
    ∃ n : WrittenName, n.tokens = ts ∧ n.text spelling = name := by
  constructor
  · intro text
    induction text with
    | @identifier t ident => exact ⟨⟨t, [], ident, List.forall_mem_nil _⟩, rfl, rfl⟩
    | @suffix ts name point t _ _ dot suffix ih =>
      obtain ⟨⟨head, suffixes, head_kind, kinds⟩, rfl, rfl⟩ := ih
      refine ⟨⟨head, suffixes ++ [(point, t)], head_kind, ?_⟩, ?_, ?_⟩
      · exact List.forall_mem_append.mpr ⟨kinds, List.forall_mem_singleton.mpr ⟨dot, suffix⟩⟩
      · simp [WrittenName.tokens]
      · simp [WrittenName.text]
  · rintro ⟨⟨head, suffixes, head_kind, kinds⟩, rfl, rfl⟩
    -- The last suffix is the one that the form adds last.
    induction suffixes using List.reverseRecOn with
    | nil => exact .identifier head_kind
    | append_singleton suffixes pair ih =>
      obtain ⟨earlier, last⟩ := List.forall_mem_append.mp kinds
      obtain ⟨dot, suffix⟩ := List.forall_mem_singleton.mp last
      have longer := NameText.suffix (ih earlier) rfl dot suffix
      simpa [WrittenName.tokens, WrittenName.text] using longer

/-- One or more names with commas between them. -/
inductive ListsNames : List Token → List WrittenName → Prop where
  | last (n : WrittenName) : ListsNames n.tokens [n]
  | more {n comma rest ns} : comma.kind = .symbol .comma → ListsNames rest ns →
      ListsNames (n.tokens ++ comma :: rest) (n :: ns)

theorem namesText_iff {ts : List Token} {names : List String} : NamesText spelling true ts names ↔
    ∃ ns, ListsNames ts ns ∧ ns.map (·.text spelling) = names := by
  constructor
  · intro text
    induction text with
    | last text =>
      obtain ⟨n, rfl, rfl⟩ := nameText_iff.mp text
      exact ⟨[n], .last n, rfl⟩
    | more text comma _ ih =>
      obtain ⟨n, rfl, rfl⟩ := nameText_iff.mp text
      obtain ⟨ns, lists, rfl⟩ := ih
      exact ⟨n :: ns, .more comma lists, rfl⟩
  · rintro ⟨ns, lists, rfl⟩
    induction lists with
    | last n => exact .last (nameText_iff.mpr ⟨n, rfl, rfl⟩)
    | more comma _ ih => exact .more (nameText_iff.mpr ⟨_, rfl, rfl⟩) comma ih

/-! ### Clauses -/

/-- A use clause, or a reference to contexts. -/
structure Clause where
  word : Token
  text : List Token
  names : List WrittenName
  semicolon : Token
  word_kind : word.kind = .keyword .use ∨ word.kind = .keyword .context
  lists : ListsNames text names
  semicolon_kind : semicolon.kind = .symbol .semicolon

namespace Clause

def tokens (c : Clause) : List Token := c.word :: (c.text ++ [c.semicolon])

def kind (c : Clause) : UnitKind := if c.word.kind = .keyword .use then .use else .contextReference

/-- The unit that holds all names of the clause. -/
def unit (spelling : Token → String) (c : Clause) : DesignUnit :=
  { kind := c.kind, names := c.names.map (·.text spelling), position := c.word.position }

theorem kind_cases (c : Clause) : c.kind = .use ∨ c.kind = .contextReference := by
  unfold kind
  split
  · exact Or.inl rfl
  · exact Or.inr rfl

theorem form_mem (c : Clause) : ∃ word, c.word.kind = .keyword word ∧ (word, c.kind, true) ∈ itemForms := by
  rcases c.word_kind with use | context
  · exact ⟨.use, use, by simp [kind, use, itemForms]⟩
  · exact ⟨.context, context, by simp [kind, context, itemForms]⟩

theorem headerText (c : Clause) : HeaderText spelling c.tokens (c.unit spelling) := by
  obtain ⟨word, same, form⟩ := c.form_mem
  exact .item form same (namesText_iff.mpr ⟨c.names, c.lists, rfl⟩) c.semicolon_kind

/-- A clause is read as its unit, and the next statement starts right behind it. -/
theorem statement_eq (c : Clause) (after : List Token) :
    statement spelling c.word (c.text ++ [c.semicolon] ++ after) = (.unit (c.unit spelling), after) :=
  statement_of_headerText c.headerText after

theorem of_headerText {head : List Token} {u : DesignUnit} (text : HeaderText spelling head u)
    (lists : u.kind = .use ∨ u.kind = .contextReference) : ∃ c : Clause, head = c.tokens ∧ u = c.unit spelling := by
  cases text with
  | @item word kind selected first ts names semicolon form same text mark =>
    simp only [itemForms, List.mem_cons, Prod.mk.injEq, List.not_mem_nil, or_false] at form
    rcases form with ⟨rfl, rfl, rfl⟩ | ⟨rfl, rfl, rfl⟩ | ⟨rfl, rfl, rfl⟩
    · simp at lists
    · obtain ⟨ns, written, rfl⟩ := namesText_iff.mp text
      exact ⟨⟨first, ts, ns, semicolon, Or.inl same, written, mark⟩, rfl, by simp [unit, kind, same]⟩
    · obtain ⟨ns, written, rfl⟩ := namesText_iff.mp text
      exact ⟨⟨first, ts, ns, semicolon, Or.inr same, written, mark⟩, rfl, by simp [unit, kind, same]⟩
  | named form _ _ _ =>
    simp only [namedForms, List.mem_cons, Prod.mk.injEq, List.not_mem_nil, or_false] at form
    rcases form with ⟨-, rfl⟩ | ⟨-, rfl⟩ | ⟨-, rfl⟩ <;> simp at lists
  | packageBody _ _ _ _ => simp at lists
  | secondary form _ _ _ _ _ =>
    simp only [secondaryForms, List.mem_cons, Prod.mk.injEq, List.not_mem_nil, or_false] at form
    rcases form with ⟨-, rfl⟩ | ⟨-, rfl⟩ <;> simp at lists

end Clause

/-- The word starts a use clause, or a reference to contexts. -/
def StartsClause (word : Token) (rest : List Token) : Prop :=
  word.kind = .keyword .use ∨ word.kind = .keyword .context ∧ ¬ Declares rest

/-- The statement gives no unit, and it is reported that something else was expected in it. -/
def Refused (source : Source) (tokens : List Token) (word : Token) (rest : List Token) : Prop :=
  (statement (spelled source) word rest).1.unit? = none ∧ ∃ d ∈ (parse source tokens).2,
    (statement (spelled source) word rest).1.report? source (endSpan source tokens) = some d ∧
      d.code? = some .expectedToken

theorem code_expectedReport (source : Source) (atEnd : Span) (d : Deviation) :
    (expectedReport source atEnd d).code? = some .expectedToken := by
  unfold expectedReport
  dsimp only
  split <;> rfl

/-- A header that `use` or `context` starts is a clause, unless it declares a context. -/
theorem exists_clause_of_headerText {word : Token} {used after : List Token} {u : DesignUnit}
    (starts : StartsClause word (used ++ after)) (text : HeaderText spelling (word :: used) u) :
    ∃ c : Clause, word :: used = c.tokens := by
  have lists : u.kind = .use ∨ u.kind = .contextReference := by
    rcases headerText_cons_iff.mp text with ⟨form, mem, same, item⟩ | ⟨form, mem, same, named⟩ | ⟨same, -⟩ |
      ⟨form, mem, same, -⟩
    · obtain ⟨_, _, _, -, -, -, rfl⟩ := item
      simp only [itemForms, List.mem_cons, List.not_mem_nil, or_false] at mem
      rcases mem with rfl | rfl | rfl
      · rcases starts with use | ⟨context, -⟩ <;> simp_all
      · exact Or.inl rfl
      · exact Or.inr rfl
    · obtain ⟨name, is, rfl, ident, is_word, -⟩ := named
      simp only [namedForms, List.mem_cons, List.not_mem_nil, or_false] at mem
      rcases starts with use | ⟨-, no⟩
      · rcases mem with rfl | rfl | rfl <;> simp_all
      · exact absurd ⟨name, is, after, rfl, ident, is_word⟩ no
    · rcases starts with use | ⟨context, -⟩ <;> simp_all
    · simp only [secondaryForms, List.mem_cons, List.not_mem_nil, or_false] at mem
      rcases starts with use | ⟨context, -⟩ <;> rcases mem with rfl | rfl <;> simp_all
  obtain ⟨c, whole, -⟩ := Clause.of_headerText text lists
  exact ⟨c, whole⟩

/-- What starts like a clause and is none goes wrong at the first token with which no header goes on. -/
theorem statement_of_no_clause {word : Token} {rest : List Token} (starts : StartsClause word rest)
    (other : ∀ c : Clause, ∀ after, word :: rest ≠ c.tokens ++ after) :
    ∃ used expected found, rest = used ++ found ∧ Begun spelling (word :: used) ∧
      (∀ t ∈ found.head?, ¬ Continues spelling (word :: used) t) ∧
      (statement spelling word rest).1 = .malformed ⟨expected, found⟩ := by
  rcases statement_cases spelling word rest with ⟨head, after, u, rfl, text, -⟩ |
    ⟨used, expected, after, rfl, fits, wrong, gives⟩ | ⟨no_word, -⟩ | ⟨no_word, -⟩
  · obtain ⟨c, whole⟩ := exists_clause_of_headerText starts text
    exact absurd (congrArg (· ++ after) whole) (other c after)
  · exact ⟨used, expected, after, rfl, begun_of_fits fits, wrong, by rw [gives after rfl]⟩
  all_goals
    rcases starts with use | ⟨context, -⟩
    · exact absurd use (no_word .use (by decide))
    · exact absurd context (no_word .context (by decide))

/-- The units that list names are those of the clauses, and every clause gives its unit, so that a name without a
suffix in it is refused only where there is none. What starts like a clause and is none gives no unit; it is
reported at the first token with which no header goes on. -/
theorem selected_names_iff (source : Source) (tokens : List Token) :
    (∀ u, (u ∈ (parse source tokens).1.units ∧ (u.kind = .use ∨ u.kind = .contextReference)) ↔
      ∃ c : Clause, ∃ after, StatementAt (spelled source) (upToEof tokens) (c.tokens ++ after) ∧
        u = c.unit (spelled source)) ∧
    (∀ c : Clause, ∀ after, StatementAt (spelled source) (upToEof tokens) (c.tokens ++ after) →
      statement (spelled source) c.word (c.text ++ [c.semicolon] ++ after) =
        (.unit (c.unit (spelled source)), after) ∧
      (((∃ n ∈ c.names, ¬ n.IsSelected) → Refused source tokens c.word (c.text ++ [c.semicolon] ++ after)) ↔
        ∀ n ∈ c.names, n.IsSelected)) ∧
    ∀ word rest, StatementAt (spelled source) (upToEof tokens) (word :: rest) → StartsClause word rest →
      (∀ c : Clause, ∀ after, word :: rest ≠ c.tokens ++ after) →
        Refused source tokens word rest ∧ ∃ used expected found, rest = used ++ found ∧
          Begun (spelled source) (word :: used) ∧
          (∀ t ∈ found.head?, ¬ Continues (spelled source) (word :: used) t) ∧
          expectedReport source (endSpan source tokens) ⟨expected, found⟩ ∈ (parse source tokens).2 := by
  refine ⟨fun u => ⟨?_, ?_⟩, fun c after _ => ⟨c.statement_eq after, ?_⟩, ?_⟩
  · rintro ⟨mem, lists⟩
    obtain ⟨word, rest, starts, gives⟩ := mem_units_iff.mp mem
    rcases statement_cases (spelled source) word rest with ⟨head, after, v, rfl, text, read⟩ |
      ⟨used, expected, after, rfl, -, -, read⟩ | ⟨-, -, read⟩ | ⟨-, -, read⟩
    · rw [read] at gives
      obtain rfl := Statement.unit.inj gives
      obtain ⟨c, whole, same⟩ := Clause.of_headerText text lists
      rw [← List.cons_append, whole] at starts
      exact ⟨c, after, starts, same⟩
    · rw [read after rfl] at gives
      exact nomatch gives
    all_goals
      rw [read] at gives
      exact nomatch gives
  · rintro ⟨c, after, starts, rfl⟩
    refine ⟨mem_units_iff.mpr ⟨c.word, c.text ++ [c.semicolon] ++ after, starts, ?_⟩, c.kind_cases⟩
    rw [c.statement_eq after]
  · constructor
    · intro refused n mem
      by_contra bare
      obtain ⟨no_unit, -⟩ := refused ⟨n, mem, bare⟩
      rw [c.statement_eq after] at no_unit
      exact nomatch no_unit
    · rintro selected ⟨n, mem, bare⟩
      exact absurd (selected n mem) bare
  · intro word rest starts clause other
    obtain ⟨used, expected, found, split, begun, wrong, gives⟩ := statement_of_no_clause clause other
    have reported := mem_reports starts (d := expectedReport source (endSpan source tokens) ⟨expected, found⟩)
      (by rw [gives]; rfl)
    refine ⟨⟨by rw [gives]; rfl, _, reported, by rw [gives]; rfl, code_expectedReport source _ _⟩, ?_⟩
    exact ⟨used, expected, found, split, begun, wrong, reported⟩

/-- A clause with a selected name is recorded, and behind it one without any name is refused. -/
theorem selected_names_before_no_name :
    let source : Source := ⟨.ofList [⟨.code, "use a.all;use;".toList⟩], 1⟩
    let clause : List Token := [⟨.keyword .use, ⟨1, 1⟩, ⟨0, 0, 3⟩⟩, ⟨.identifier, ⟨1, 5⟩, ⟨0, 4, 1⟩⟩,
      ⟨.symbol .dot, ⟨1, 6⟩, ⟨0, 5, 1⟩⟩, ⟨.keyword .all, ⟨1, 7⟩, ⟨0, 6, 3⟩⟩, ⟨.symbol .semicolon, ⟨1, 10⟩, ⟨0, 9, 1⟩⟩]
    let word : Token := ⟨.keyword .use, ⟨1, 11⟩, ⟨0, 10, 3⟩⟩
    let rest : List Token := [⟨.symbol .semicolon, ⟨1, 14⟩, ⟨0, 13, 1⟩⟩]
    { kind := .use, names := ["a.all"], position := ⟨1, 1⟩ } ∈ (parse source (clause ++ word :: rest)).1.units ∧
      Refused source (clause ++ word :: rest) word rest := by
  intro source clause word rest
  obtain ⟨units, -, refused⟩ := selected_names_iff source (clause ++ word :: rest)
  let name : WrittenName := ⟨⟨.identifier, ⟨1, 5⟩, ⟨0, 4, 1⟩⟩,
    [(⟨.symbol .dot, ⟨1, 6⟩, ⟨0, 5, 1⟩⟩, ⟨.keyword .all, ⟨1, 7⟩, ⟨0, 6, 3⟩⟩)], rfl,
    List.forall_mem_singleton.mpr ⟨rfl, rfl⟩⟩
  let c : Clause := ⟨⟨.keyword .use, ⟨1, 1⟩, ⟨0, 0, 3⟩⟩, name.tokens, [name],
    ⟨.symbol .semicolon, ⟨1, 10⟩, ⟨0, 9, 1⟩⟩, Or.inl rfl, .last name, rfl⟩
  have clause_first : StatementAt (spelled source) (upToEof (clause ++ word :: rest)) (c.tokens ++ word :: rest) :=
    .first
  have word_next : StatementAt (spelled source) (upToEof (clause ++ word :: rest)) (word :: rest) := by
    have next : StatementAt (spelled source) (upToEof (clause ++ word :: rest))
        (statement (spelled source) c.word (c.text ++ [c.semicolon] ++ word :: rest)).2 := .next clause_first
    rwa [c.statement_eq (word :: rest)] at next
  refine ⟨((units _).mpr ⟨c, _, clause_first, by decide⟩).1, (refused word rest word_next (Or.inl rfl) ?_).1⟩
  rintro ⟨_, text, ns, _, _, lists, _⟩ after same
  have starts : ∀ t ∈ text.head?, t.kind = .identifier := by
    cases lists with
    | last n => simp [WrittenName.tokens, n.head_kind]
    | @more n _ _ _ _ _ => simp [WrittenName.tokens, n.head_kind]
  cases text with
  | nil => cases lists
  | cons t text =>
    have is_semicolon : (⟨.symbol .semicolon, ⟨1, 14⟩, ⟨0, 13, 1⟩⟩ : Token) = t :=
      (List.cons.inj (List.cons.inj same).2).1
    have is_identifier := starts t rfl
    rw [← is_semicolon] at is_identifier
    exact nomatch is_identifier

/-- A library without a suffix is recorded, and nothing is reported. -/
theorem bare_name_recorded :
    ∃ run, Analysis.ofText {} "use ieee;".toList = .ok run ∧ run.reports = [] ∧
      run.outline.units = [{ kind := .use, names := ["ieee"], position := ⟨1, 1⟩ }] ∧
      ∃ c : Clause, run.tokens = c.tokens ++ [run.source.eofToken] ∧ (∃ n ∈ c.names, ¬ n.IsSelected) ∧
        ¬ Refused run.source run.tokens c.word (c.text ++ [c.semicolon]) := by
  have runs : Analysis.ofText {} "use ieee;".toList = .ok
      { source := ⟨.ofList [⟨.code, "use ieee;".toList⟩], 1⟩
        tokens := [⟨.keyword .use, ⟨1, 1⟩, ⟨0, 0, 3⟩⟩, ⟨.identifier, ⟨1, 5⟩, ⟨0, 4, 4⟩⟩,
          ⟨.symbol .semicolon, ⟨1, 9⟩, ⟨0, 8, 1⟩⟩, ⟨.eof, ⟨1, 10⟩, ⟨0, 9, 0⟩⟩]
        reports := []
        outline := ⟨[{ kind := .use, names := ["ieee"], position := ⟨1, 1⟩ }], 3⟩ } := by
    decide +kernel
  let name : WrittenName := ⟨⟨.identifier, ⟨1, 5⟩, ⟨0, 4, 4⟩⟩, [], rfl, List.forall_mem_nil _⟩
  let c : Clause := ⟨⟨.keyword .use, ⟨1, 1⟩, ⟨0, 0, 3⟩⟩, name.tokens, [name],
    ⟨.symbol .semicolon, ⟨1, 9⟩, ⟨0, 8, 1⟩⟩, Or.inl rfl, .last name, rfl⟩
  refine ⟨_, runs, rfl, rfl, c, rfl, ⟨name, List.mem_cons_self, fun selected => selected rfl⟩, ?_⟩
  rintro ⟨no_unit, -⟩
  have read := @Clause.statement_eq (spelled ⟨.ofList [⟨.code, "use ieee;".toList⟩], 1⟩) c []
  rw [List.append_nil] at read
  rw [read] at no_unit
  exact nomatch no_unit

end VhdlFrontEnd.Outline
