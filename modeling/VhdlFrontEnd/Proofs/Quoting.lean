import VhdlFrontEnd.Proofs.PhysicalLines
import VhdlFrontEnd.Proofs.Tiling

/-!
# Quoted texts are read whole

Any text can be put between quotes, or between backslashes if it is not empty, by doubling the marks in
it. `quoted_read_whole` shows that a line which starts so has the quoted text as its first token, without
a report, and goes on behind it as it would behind any such token.
-/

namespace VhdlFrontEnd

namespace Quoted

/-- The text between two marks `q`, with every mark in it doubled. -/
def quoted (q : Char) (cs : List Char) : List Char := q :: doubled q cs ++ [q]

/-- The text with one mark in place of each two that are adjacent. -/
def undoubled (q : Char) : List Char → List Char
  | c :: d :: cs => if c = q ∧ d = q then q :: undoubled q cs else c :: undoubled q (d :: cs)
  | cs => cs

/-- The text that stands between the outer marks of a quoted text. -/
def unquoted (q : Char) (cs : List Char) : List Char := undoubled q cs.tail.dropLast

variable {q c : Char} {cs rest : List Char}

@[simp] theorem doubled_nil (q : Char) : doubled q [] = [] := rfl

theorem doubled_cons_self (q : Char) (cs : List Char) : doubled q (q :: cs) = q :: q :: doubled q cs := by
  simp [doubled]

theorem doubled_cons_of_ne (other : c ≠ q) (cs : List Char) : doubled q (c :: cs) = c :: doubled q cs := by
  simp [doubled, other]

theorem mem_doubled : c ∈ doubled q cs ↔ c ∈ cs := by
  rw [doubled, List.mem_flatMap]
  constructor
  · rintro ⟨d, mem, here⟩
    split at here <;> simp_all
  · intro mem
    exact ⟨c, mem, by split <;> simp⟩

theorem doubled_eq_nil_iff : doubled q cs = [] ↔ cs = [] := by
  simp only [List.eq_nil_iff_forall_not_mem, mem_doubled]

theorem undoubled_doubled (q : Char) (cs : List Char) : undoubled q (doubled q cs) = cs := by
  induction cs with
  | nil => rfl
  | cons c cs ih =>
    by_cases mark : c = q
    · subst mark
      rw [doubled_cons_self, undoubled, if_pos ⟨rfl, rfl⟩, ih]
    · rw [doubled_cons_of_ne mark]
      cases pieces : doubled q cs with
      | nil => rw [doubled_eq_nil_iff.mp pieces]; rfl
      -- Only a mark can make a pair with what follows, so `c` stays alone.
      | cons d ds => rw [undoubled, if_neg fun both => mark both.1, ← pieces, ih]

theorem unquoted_quoted (q : Char) (cs : List Char) : unquoted q (quoted q cs) = cs := by
  rw [unquoted, quoted, List.cons_append, List.tail_cons, List.dropLast_concat, undoubled_doubled]

theorem quoted_append (q : Char) (cs rest : List Char) :
    quoted q cs ++ rest = q :: (doubled q cs ++ q :: rest) := by
  simp [quoted]

/-- The texts that can be quoted with a mark, and the kind of token that the quoted text is. -/
inductive Quotable : Char → TokenKind → List Char → Prop where
  | string {body} : Quotable '"' .string body
  | extended {body} : body ≠ [] → Quotable '\\' .identifier body

variable {kind : TokenKind}

/-- A quoted text is read up to its closing mark, if no other mark follows. -/
theorem read_quoted (quotable : Quotable q kind cs) (stop : rest.head? ≠ some q)
    (previous? : Option TokenKind) :
    Lexeme.read previous? q (doubled q cs ++ q :: rest) = ⟨.token kind, quoted q cs, rest⟩ := by
  have closed := upToClose?_doubled q cs rest stop
  cases quotable with
  | string =>
    rw [Lexeme.read, if_neg (by decide), if_pos rfl, string, closed]
    rfl
  | extended some_text =>
    have some_body : doubled '\\' cs ++ ['\\'] ≠ ['\\'] := by
      rw [ne_eq, List.append_left_eq_self, doubled_eq_nil_iff]
      exact some_text
    rw [Lexeme.read, if_neg (by decide), if_neg (by decide), if_pos rfl, extended, closed]
    dsimp only
    rw [if_neg some_body]
    rfl

theorem first_quoted (quotable : Quotable q kind cs) (stop : rest.head? ≠ some q)
    (previous? : Option TokenKind) :
    Piece.first previous? q (doubled q cs ++ q :: rest) =
      (⟨.lexeme (.token kind), quoted q cs⟩, rest) := by
  have read := read_quoted quotable stop previous?
  have no_comment : Piece.comment? (q :: (doubled q cs ++ q :: rest)) = none := by
    cases quotable <;> rfl
  have no_blank : Text.isBlank q = false := by
    cases quotable <;> rfl
  rw [Piece.first, no_blank, no_comment, read]
  rfl

/-- The quoted text is the first piece of the line, and what follows is cut as behind such a token. -/
theorem pieces_quoted (quotable : Quotable q kind cs) (stop : rest.head? ≠ some q)
    (previous? : Option TokenKind) :
    Piece.pieces previous? (quoted q cs ++ rest) =
      ⟨.lexeme (.token kind), quoted q cs⟩ :: Piece.pieces (some kind) rest := by
  rw [quoted_append, Piece.pieces_cons, first_quoted quotable stop]
  rfl

theorem readFresh_quoted (quotable : Quotable q kind cs) (place : Source.LinePlace) (rest : List Char) :
    (Source.readFresh place (quoted q cs ++ rest)).line = ⟨.code, quoted q cs ++ rest⟩ := by
  rw [quoted_append]
  cases quotable <;> rfl

theorem Quotable.not_newline (quotable : Quotable q kind cs) : q ≠ '\n' := by
  cases quotable <;> decide

/-- A text of one line that starts with a quoted text is loaded as a line of code. -/
theorem ofText_quoted {settings : SourceSettings} (quotable : Quotable q kind cs)
    (no_newline : '\n' ∉ cs ++ rest) (no_return : rest.getLast? ≠ some '\r')
    (short : (quoted q cs ++ rest).length ≤ settings.maxLineLength) :
    ∃ loaded, Source.ofText settings (quoted q cs ++ rest) = .ok loaded ∧
      loaded.source = ⟨.ofList [⟨.code, quoted q cs ++ rest⟩], settings.tabWidth⟩ := by
  have no_newline : '\n' ∉ quoted q cs ++ rest := by
    have mark := quotable.not_newline
    rw [List.mem_append, not_or] at no_newline
    simp [quoted, mem_doubled, no_newline, mark.symm]
  have no_return : (quoted q cs ++ rest).getLast? ≠ some '\r' := by
    rw [List.getLast?_append]
    -- With nothing behind it the text ends in the closing mark.
    cases last : rest.getLast? with
    | none =>
      have mark : (quoted q cs).getLast? = some q := by rw [quoted, List.getLast?_concat]
      rw [mark]
      cases quotable <;> decide
    | some c =>
      rw [last] at no_return
      simpa using no_return
  have no_mark : (quoted q cs ++ rest).head? ≠ some '\ufeff' := by
    rw [quoted_append]
    cases quotable <;> simp
  have line := Text.physicalLines_of_line (by simp [quoted]) no_newline no_return no_mark
  refine ⟨_, Source.ofText_eq_ok.mpr ⟨?_, rfl⟩, ?_⟩
  · rw [line, Source.overlong?_eq_none_iff]
    exact List.forall_mem_singleton.mpr short
  · rw [line]
    have role := readFresh_quoted quotable ⟨settings.tabWidth, 1⟩ rest
    simp [Source.ofLines, Source.readLines, Source.readLine, role]

end Quoted

namespace Source

variable {s : Source} {i : Nat} {q : Char} {kind : TokenKind} {body rest : List Char}

/-- What stands on line `i` behind the token `text` at its start, and where. -/
def scanBehind (s : Source) (i : Nat) (kind : TokenKind) (text rest : List Char) : List Located :=
  locate s.scanTabWidth ((Place.lineStart i).after s.scanTabWidth text) (Piece.pieces (some kind) rest)

theorem column_of_mem_scanBehind {text : List Char} {d : Diagnostic}
    (mem : d ∈ (s.scanBehind i kind text rest).filterMap (·.report?)) :
    Text.columnAfter s.scanTabWidth text ≤ d.position.column := by
  obtain ⟨l, behind, given⟩ := List.mem_filterMap.mp mem
  obtain ⟨_, -, -, -, span⟩ := Located.report?_eq_some given
  have column := (locate_bounds behind).2.2
  rw [Place.after_lineStart] at column
  rw [Diagnostic.position, span]
  exact column

theorem spelling_at_start {text : List Char} (here : s.lines.get? i = some ⟨.code, text ++ rest⟩)
    (position : Position) : s.spelling ⟨kind, position, ⟨i, 0, Text.byteLength text⟩⟩ = text := by
  have cut : Text.slice? (text ++ rest) 0 (Text.byteLength text) = some text :=
    Text.slice?_append [] text rest
  rw [spelling, slice]
  dsimp only
  rw [here, Option.bind_some, cut]
  rfl

theorem scan_quoted (quotable : Quoted.Quotable q kind body) (stop : rest.head? ≠ some q)
    (here : s.lines.get? i = some ⟨.code, Quoted.quoted q body ++ rest⟩) :
    s.scan.filter (·.start.line == i) =
      ⟨⟨.lexeme (.token kind), Quoted.quoted q body⟩, .lineStart i,
          (Place.lineStart i).after s.scanTabWidth (Quoted.quoted q body)⟩ ::
        s.scanBehind i kind (Quoted.quoted q body) rest := by
  rw [scan_on_line here rfl, Quoted.pieces_quoted quotable stop]
  rfl

end Source

/-- Take any text between quotes, or any but the empty one between backslashes, with every mark in it
doubled, and behind it any text that does not start with a further mark. As a text of its own it is loaded
as a line of code, under any settings that allow its length. On whatever line of code of whatever source
it stands at the start, the first token is the quoted text, a string or an identifier, and `unquoted` gives
back what was quoted. The other tokens and all reports of the line are those of what stands behind it. -/
theorem quoted_read_whole {q : Char} {kind : TokenKind} {body rest : List Char}
    (quotable : Quoted.Quotable q kind body) (stop : rest.head? ≠ some q) :
    (∀ settings : SourceSettings, '\n' ∉ body ++ rest → rest.getLast? ≠ some '\r' →
      (Quoted.quoted q body ++ rest).length ≤ settings.maxLineLength →
      ∃ loaded, Source.ofText settings (Quoted.quoted q body ++ rest) = .ok loaded ∧
        loaded.source = ⟨.ofList [⟨.code, Quoted.quoted q body ++ rest⟩], settings.tabWidth⟩) ∧
    ∀ s : Source, ∀ i, s.lines.get? i = some ⟨.code, Quoted.quoted q body ++ rest⟩ →
      ∃ tokens reports t, s.tokenize = .ok (tokens, reports) ∧
        t.kind = kind ∧ t.position = ⟨i + 1, 1⟩ ∧ s.spelling t = Quoted.quoted q body ∧
        Quoted.unquoted q (s.spelling t) = body ∧
        tokensOn i tokens = t :: (s.scanBehind i kind (Quoted.quoted q body) rest).filterMap (·.token?) ∧
        reportsOn i reports = (s.scanBehind i kind (Quoted.quoted q body) rest).filterMap (·.report?) ∧
        ∀ d ∈ reportsOn i reports,
          Text.columnAfter s.scanTabWidth (Quoted.quoted q body) ≤ d.position.column := by
  refine ⟨fun settings => Quoted.ofText_quoted quotable, fun s i here => ?_⟩
  have scan := Source.scan_quoted quotable stop here
  have spelled : s.spelling ⟨kind, ⟨i + 1, 1⟩, ⟨i, 0, Text.byteLength (Quoted.quoted q body)⟩⟩ =
      Quoted.quoted q body := Source.spelling_at_start here _
  have reports := reportsOn_scan s i
  rw [scan] at reports
  have tokenized := Source.tokenize_eq (Source.lineCount_pos_of_get? here)
  refine ⟨_, _, _, tokenized, rfl, rfl, spelled, ?_, ?_, reports, ?_⟩
  · rw [spelled, Quoted.unquoted_quoted]
  · rw [tokensOn_scan, scan]
    rfl
  · rw [reports]
    exact fun d => Source.column_of_mem_scanBehind

/-- A string of two quotes ends before the comment, and an extended identifier may start with a backslash. -/
theorem quoted_read_whole_of_marks :
    (∃ tokens reports t, (Source.mk (.ofList [⟨.code, "\"\"\"\"\"\" -- \"".toList⟩]) 4).tokenize =
        .ok (tokens, reports) ∧ t.kind = .string ∧ tokensOn 0 tokens = [t] ∧ reportsOn 0 reports = []) ∧
    ∃ loaded tokens reports t, Source.ofText {} "\\\\\\a\\;".toList = .ok loaded ∧
      loaded.source.tokenize = .ok (tokens, reports) ∧ t.kind = .identifier ∧
      Quoted.unquoted '\\' (loaded.source.spelling t) = "\\a".toList ∧
      tokensOn 0 tokens = [t, ⟨.symbol .semicolon, ⟨1, 6⟩, ⟨0, 5, 1⟩⟩] ∧ reportsOn 0 reports = [] := by
  constructor
  · have quotable : Quoted.Quotable '"' .string ['"', '"'] := .string
    have stop : " -- \"".toList.head? ≠ some '"' := by decide
    obtain ⟨-, scanned⟩ := quoted_read_whole quotable stop
    obtain ⟨tokens, reports, t, tokenized, kind, -, -, -, tokens_on, reports_on, -⟩ :=
      scanned ⟨.ofList [⟨.code, "\"\"\"\"\"\" -- \"".toList⟩], 4⟩ 0 rfl
    refine ⟨tokens, reports, t, tokenized, kind, tokens_on.trans ?_, reports_on.trans ?_⟩
    · exact congrArg _ (by decide +kernel)
    · decide +kernel
  · have quotable : Quoted.Quotable '\\' .identifier ['\\', 'a'] := .extended (by decide)
    have stop : [';'].head? ≠ some '\\' := by decide
    obtain ⟨loads, scanned⟩ := quoted_read_whole quotable stop
    obtain ⟨loaded, load, source⟩ := loads {} (by decide) (by decide) (by decide)
    obtain ⟨tokens, reports, t, tokenized, kind, -, -, body, tokens_on, reports_on, -⟩ :=
      scanned loaded.source 0 (by rw [source]; rfl)
    rw [source] at tokens_on reports_on
    refine ⟨loaded, tokens, reports, t, load, tokenized, kind, body, tokens_on.trans ?_, reports_on.trans ?_⟩
    · exact congrArg _ (by decide +kernel)
    · decide +kernel

end VhdlFrontEnd
