import VhdlFrontEnd.Outline.Parse

/-!
# The grammar of the outline

What a token sequence is read as, said without the functions that read it: names, headers, and
from these the relation `Reads`. A header that goes wrong is reported at the first token with
which no header goes on.
-/

namespace VhdlFrontEnd.Outline

variable (spelling : Token → String)

/-! ### Names -/

/-- An identifier and, in a selected name, any number of points with a suffix each. -/
inductive NameText (selected : Bool) : List Token → String → Prop where
  | identifier {t} : t.kind = .identifier → NameText selected [t] (spelling t)
  | suffix {ts name point t} : NameText selected ts name → selected →
      point.kind = .symbol .dot → isSuffix t.kind →
      NameText selected (ts ++ [point, t]) (name ++ "." ++ spelling t)

/-- One or more names with commas between them. -/
inductive NamesText (selected : Bool) : List Token → List String → Prop where
  | last {ts name} : NameText spelling selected ts name → NamesText selected ts [name]
  | more {ts name comma rest names} : NameText spelling selected ts name →
      comma.kind = .symbol .comma → NamesText selected rest names →
      NamesText selected (ts ++ comma :: rest) (name :: names)

/-! ### Headers -/

/-- The words that start a list of names up to a semicolon, with the kind of the unit and whether
the names are selected names. -/
def itemForms : List (Keyword × UnitKind × Bool) :=
  [(.library, .library, false), (.use, .use, true), (.context, .contextReference, true)]

/-- The words that start a declaration of a unit on its own. -/
def namedForms : List (Keyword × UnitKind) :=
  [(.entity, .entity), (.package, .package), (.context, .context)]

/-- The words that start a declaration of a unit that belongs to an entity. -/
def secondaryForms : List (Keyword × UnitKind) :=
  [(.architecture, .architecture), (.configuration, .configuration)]

/-- A whole header, and the unit that it gives. -/
inductive HeaderText : List Token → DesignUnit → Prop where
  | item {word kind selected first ts names semicolon} : (word, kind, selected) ∈ itemForms →
      first.kind = .keyword word → NamesText spelling selected ts names →
      semicolon.kind = .symbol .semicolon →
      HeaderText (first :: ts ++ [semicolon]) { kind, names, position := first.position }
  | named {word kind first name is} : (word, kind) ∈ namedForms →
      first.kind = .keyword word → name.kind = .identifier → is.kind = .keyword .is →
      HeaderText [first, name, is]
        { kind, name? := some (spelling name), position := first.position }
  | packageBody {first body name is} : first.kind = .keyword .package →
      body.kind = .keyword .body → name.kind = .identifier → is.kind = .keyword .is →
      HeaderText [first, body, name, is]
        { kind := .packageBody, name? := some (spelling name), position := first.position }
  | secondary {word kind first name of entity is} : (word, kind) ∈ secondaryForms →
      first.kind = .keyword word → name.kind = .identifier → of.kind = .keyword .of →
      entity.kind = .identifier → is.kind = .keyword .is →
      HeaderText [first, name, of, entity, is]
        { kind, name? := some (spelling name), of? := some (spelling entity),
          position := first.position }

/-- The words that start a header. -/
def headerWords : List Keyword :=
  [.library, .use, .context, .entity, .architecture, .configuration, .package]

/-- Some header starts with the tokens `before` and the token `t`. -/
def Continues (before : List Token) (t : Token) : Prop :=
  ∃ after u, HeaderText spelling (before ++ t :: after) u

/-- Some header starts with the tokens and goes on behind them. -/
def Begun (before : List Token) : Prop := ∃ t, Continues spelling before t

/-- The kind is what is expected. -/
def Expected.Fits : Expected → TokenKind → Prop
  | token kind, found => found = kind
  | identifier, found => found = .identifier
  | suffix, found => isSuffix found

/-- The error that the kind `found` stands at the span and not what was expected. At the end of the
file it is a fallback. -/
def missingReport (expected : Expected) (found : TokenKind) (span : Span) : Diagnostic :=
  { Diagnostic.error .expectedToken span ("expected " ++ expected.render ++ ", found " ++ found.render) with
    fallback := found == .eof }

/-- The report names something with which a header that starts with `before` could go on. -/
def Missing (before : List Token) (found : TokenKind) (span : Span) (d : Diagnostic) : Prop :=
  ∃ expected : Expected, (∀ t, expected.Fits t.kind → Continues spelling before t) ∧
    d = missingReport expected found span

/-! ### Statements -/

/-- Past the first semicolon, or up to the end of the file where there is none before it. -/
inductive SkipsTo : List Token → List Token → Prop where
  | semicolon {t rest} : t.kind = .symbol .semicolon → SkipsTo (t :: rest) rest
  | other {t rest next} : t.kind ≠ .symbol .semicolon → t.kind ≠ .eof → SkipsTo rest next →
      SkipsTo (t :: rest) next
  | eof {t rest} : t.kind = .eof → SkipsTo (t :: rest) (t :: rest)
  | nil : SkipsTo [] []

/-- The spelling of a token as a text. -/
def spelled (source : Source) (t : Token) : String := String.ofList (source.spelling t)

/-- The columns that a report about a token covers. -/
def tokenSpan (source : Source) (t : Token) : Span := ⟨t.position, (source.spelling t).length⟩

/-- The tokens are a sequence of statements that gives these units and these reports. A header
gives its unit, and the next statement starts right behind it. A header that goes wrong is reported
at the token, or at the end of the tokens, where it does; a closer that starts a statement is
reported too; any other statement is passed over. After each of these the next statement starts
past a semicolon. -/
inductive Reads (source : Source) : List Token → List DesignUnit → List Diagnostic → Prop where
  | nil : Reads source [] [] []
  | eof {t rest} : t.kind = .eof → Reads source (t :: rest) [] []
  | header {head u rest us ds} : HeaderText (spelled source) head u → Reads source rest us ds →
      Reads source (head ++ rest) (u :: us) ds
  | malformed {first before t rest next d us ds} :
      Begun (spelled source) (first :: before) →
      ¬ Continues (spelled source) (first :: before) t →
      Missing (spelled source) (first :: before) t.kind (tokenSpan source t) d →
      SkipsTo (t :: rest) next → Reads source next us ds →
      Reads source (first :: before ++ t :: rest) us (d :: ds)
  | unfinished {before last d} : Begun (spelled source) (before ++ [last]) →
      Missing (spelled source) (before ++ [last]) .eof (.point last.position) d →
      Reads source (before ++ [last]) [] [d]
  | unexpected {first rest next us ds} : isStrayCloser first.kind →
      SkipsTo (first :: rest) next → Reads source next us ds →
      Reads source (first :: rest) us
        (.error .unexpectedToken (tokenSpan source first) ("unexpected " ++ first.kind.render) :: ds)
  | skipped {first rest next us ds} : (∀ word ∈ headerWords, first.kind ≠ .keyword word) →
      ¬ isStrayCloser first.kind → first.kind ≠ .eof →
      SkipsTo (first :: rest) next → Reads source next us ds → Reads source (first :: rest) us ds

/-! ### Where a header ends -/

variable {spelling}

theorem ne_eof_of_isStrayCloser {kind : TokenKind} (closer : isStrayCloser kind) : kind ≠ .eof := by
  rintro rfl
  exact nomatch closer

theorem ends_nothing_of_isSuffix {kind : TokenKind} (h : isSuffix kind) :
    kind ≠ .eof ∧ kind ≠ .symbol .semicolon := by
  constructor <;> rintro rfl <;> exact nomatch h

theorem ends_nothing_of_nameText {selected : Bool} {ts : List Token} {name : String}
    (text : NameText spelling selected ts name) :
    ∀ t ∈ ts, t.kind ≠ .eof ∧ t.kind ≠ .symbol .semicolon := by
  induction text with
  | identifier ident => simp [ident]
  | suffix _ _ dot suffix ih =>
    simp only [List.mem_append, List.mem_cons, List.not_mem_nil, or_false]
    rintro t (mem | rfl | rfl)
    · exact ih t mem
    · simp [dot]
    · exact ends_nothing_of_isSuffix suffix

theorem ends_nothing_of_namesText {selected : Bool} {ts : List Token} {names : List String}
    (text : NamesText spelling selected ts names) :
    ∀ t ∈ ts, t.kind ≠ .eof ∧ t.kind ≠ .symbol .semicolon := by
  induction text with
  | last text => exact ends_nothing_of_nameText text
  | more text comma _ ih =>
    simp only [List.mem_append, List.mem_cons]
    rintro t (mem | rfl | mem)
    · exact ends_nothing_of_nameText text t mem
    · simp [comma]
    · exact ih t mem

/-- Before its last token a header holds no semicolon, and it holds no end of the file. -/
theorem HeaderText.exists_last {head : List Token} {u : DesignUnit}
    (text : HeaderText spelling head u) : ∃ before last, head = before ++ [last] ∧
      last.kind ≠ .eof ∧ ∀ t ∈ before, t.kind ≠ .eof ∧ t.kind ≠ .symbol .semicolon := by
  cases text with
  | @item _ _ _ first ts _ _ _ word names mark =>
    refine ⟨first :: ts, _, rfl, by simp [mark], ?_⟩
    simp only [List.mem_cons]
    rintro t (rfl | mem)
    · simp [word]
    · exact ends_nothing_of_namesText names t mem
  | named _ word ident is => exact ⟨[_, _], _, rfl, by simp [is], by simp [word, ident]⟩
  | packageBody word body ident is =>
    exact ⟨[_, _, _], _, rfl, by simp [is], by simp [word, body, ident]⟩
  | secondary _ word ident of entity is =>
    exact ⟨[_, _, _, _], _, rfl, by simp [is], by simp [word, ident, of, entity]⟩

theorem HeaderText.ne_nil {head : List Token} {u : DesignUnit} (text : HeaderText spelling head u) :
    head ≠ [] := by
  obtain ⟨before, last, rfl, -, -⟩ := text.exists_last
  exact List.append_ne_nil_of_right_ne_nil before (List.cons_ne_nil last [])

theorem HeaderText.ne_eof {head : List Token} {u : DesignUnit} (text : HeaderText spelling head u) :
    ∀ t ∈ head, t.kind ≠ .eof := by
  obtain ⟨before, last, rfl, stands, clear⟩ := text.exists_last
  intro t mem
  rcases List.mem_append.mp mem with mem | mem
  · exact (clear t mem).1
  · rwa [List.mem_singleton.mp mem]

/-- A header that goes on has no end of the file and no semicolon so far. -/
theorem ends_nothing_of_begun {before : List Token} (begun : Begun spelling before) :
    ∀ t ∈ before, t.kind ≠ .eof ∧ t.kind ≠ .symbol .semicolon := by
  obtain ⟨next, after, u, text⟩ := begun
  obtain ⟨front, last, split, -, clear⟩ := text.exists_last
  have whole : before ++ (next :: after).dropLast = front := by
    rw [← List.dropLast_append_of_ne_nil (List.cons_ne_nil next after), split, List.dropLast_concat]
  intro t mem
  exact clear t (whole ▸ List.mem_append_left _ mem)

end VhdlFrontEnd.Outline
