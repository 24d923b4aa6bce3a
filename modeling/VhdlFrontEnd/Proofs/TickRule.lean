import VhdlFrontEnd.Proofs.LongestMatch

/-!
# Ticks and character literals

Each token is what is read at its place under the kind of the token before it (`exists_read_of_token`). So the
token before an apostrophe tells a tick from a character literal, on whatever line it stands (`tick_rule`).
-/

namespace VhdlFrontEnd

namespace Source

variable {s : Source} {before after : List Token} {t : Token}

/-- The tokens of a source before one of them fix what is read there. -/
theorem exists_read_of_token (split : s.scan.filterMap (·.token?) = before ++ t :: after) :
    ∃ line front c rest, s.lines.get? t.range.line = some line ∧ line.text = front ++ c :: rest ∧
      t.range.start = Text.byteLength front ∧
      (Lexeme.read (before.getLast?.map (·.kind)) c rest).lexeme.kind? = some t.kind ∧
      (Lexeme.read (before.getLast?.map (·.kind)) c rest).text = s.spelling t := by
  obtain ⟨earlier, here, scan, tokens_before, from_here⟩ := List.filterMap_eq_append_iff.mp split
  obtain ⟨silent, l, later, rfl, none_between, given, -⟩ := List.filterMap_eq_cons_iff.mp from_here
  -- Pieces between the two tokens give none, so the last token before both is the same.
  have scan_split : s.scan = (earlier ++ silent) ++ l :: later := by rw [scan, List.append_assoc]
  have same_before : (earlier ++ silent).filterMap (·.token?) = before := by
    rw [List.filterMap_append, tokens_before, List.filterMap_eq_nil_iff.mpr none_between, List.append_nil]
  obtain ⟨line, front, c, rest, mem, text, start, read⟩ := scanLines_split scan_split
  rw [foldl_previousAfter_located, lastKind, same_before] at read
  obtain ⟨kind, -, range⟩ := Located.token?_eq_some given
  have lexeme : ¬ l.piece.isGap := by
    intro gap
    rw [Located.token?_of_isGap gap] at given
    cases given
  obtain ⟨-, same_kind, same_text⟩ := Piece.first_of_lexeme read lexeme
  obtain ⟨_, _, _, stands⟩ := stands_of_mem_scan (scan_split ▸ List.mem_append_right _ List.mem_cons_self)
  refine ⟨line, front, c, rest, ?_, text, ?_, same_kind.symm.trans kind, ?_⟩
  · rw [range]
    exact (mem_codeLines.mp mem).1
  · rw [range, start, Place.after_lineStart]
  · rw [← same_text, Located.spelling_of_stands stands given]

/-- The end of the file has no text behind it, so a token that has some is one of the scan. -/
theorem token_of_text {line : Line} {front rest : List Char} {c : Char} (nonempty : 0 < s.lineCount)
    (split : s.scan.filterMap (·.token?) ++ [s.eofToken] = before ++ t :: after)
    (here : s.lines.get? t.range.line = some line) (text : line.text = front ++ c :: rest)
    (start : t.range.start = Text.byteLength front) :
    ∃ later, s.scan.filterMap (·.token?) = before ++ t :: later := by
  rcases List.eq_nil_or_concat after with rfl | ⟨later, last, rfl⟩
  · obtain ⟨-, same⟩ := List.append_inj' split rfl
    obtain rfl := (List.cons.inj same).1
    obtain ⟨-, -, last, at_end, -⟩ := eofToken_between nonempty
    obtain rfl : line = last := Option.some.inj (here.symm.trans at_end.found)
    have long := start.symm.trans at_end.start
    rw [text, Text.byteLength_append, Text.byteLength_cons] at long
    have := c.utf8Size_pos
    omega
  · rw [List.concat_eq_append, ← List.cons_append, ← List.append_assoc] at split
    exact ⟨later, (List.append_inj' split rfl).1⟩

end Source

theorem TokenKind.endsName_iff {k : TokenKind} :
    k.endsName ↔ k ∈ [.identifier, .symbol .rightParen, .symbol .rightBracket, .keyword .all] := by
  have each : ∀ k ∈ TokenKind.all,
      (k.endsName ↔ k ∈ [.identifier, .symbol .rightParen, .symbol .rightBracket, .keyword .all]) := by
    decide +kernel
  exact each k (mem_all k)

/-- A character literal can be read behind the tokens: the last of them ends no name, and on the line there are a
graphic character and an apostrophe. -/
structure LiteralBehind (before : List Token) (c : Char) (rest : List Char) : Prop where
  no_name : ∀ q ∈ before.getLast?,
    q.kind ∉ [.identifier, .symbol .rightParen, .symbol .rightBracket, .keyword .all]
  closed : ∃ more, rest = c :: '\'' :: more
  graphic : ¬ Text.isControl c

theorem not_endsName_iff {before : List Token} :
    ¬ (before.getLast?.map (·.kind)).any TokenKind.endsName ↔ ∀ q ∈ before.getLast?,
      q.kind ∉ [.identifier, .symbol .rightParen, .symbol .rightBracket, .keyword .all] := by
  cases before.getLast? with
  | none => simp
  | some q => simp only [Option.map_some, Option.any_some, TokenKind.endsName_iff, Option.mem_some_iff, forall_eq']

theorem LiteralBehind.read {before : List Token} {c : Char} {rest : List Char}
    (literal : LiteralBehind before c rest) : ∃ more, Lexeme.read (before.getLast?.map (·.kind)) '\'' rest =
      ⟨.token .character, ['\'', c, '\''], more⟩ := by
  obtain ⟨no_name, ⟨more, rfl⟩, graphic⟩ := literal
  have plain := not_endsName_iff.mpr no_name
  refine ⟨more, ?_⟩
  rw [Lexeme.read, if_pos rfl, Lexeme.apostrophe, if_pos]
  simp [plain, graphic, Text.isGraphic]

theorem LiteralBehind.of_characterStarts {before : List Token} {rest : List Char}
    (starts : CharacterStarts (before.getLast?.map (·.kind)) ('\'' :: rest)) :
    ∃ c, LiteralBehind before c rest := by
  obtain ⟨no_name, c, more, same, graphic⟩ := starts
  refine ⟨c, not_endsName_iff.mp no_name, ⟨more, (List.cons.inj same).2⟩, ?_⟩
  simpa [Text.isGraphic] using graphic

theorem Lexeme.kind_of_backslash {previous? : Option TokenKind} {rest : List Char} {kind : TokenKind}
    (found : (read previous? '\\' rest).lexeme.kind? = some kind) : kind = .identifier := by
  rw [read, if_neg (by decide), if_neg (by decide), if_pos rfl] at found
  unfold Quoted.extended at found
  repeat' split at found
  all_goals cases found
  rfl

/-- Where a token starts at an apostrophe, it is a character literal if the last token before it, on whatever line,
is not an identifier, nor `)`, `]` or `all`, and a graphic character and another apostrophe follow; otherwise it is
a tick. An identifier that is extended counts as one. -/
theorem tick_rule {s : Source} (nonempty : 0 < s.lineCount) :
    ∃ tokens reports, s.tokenize = .ok (tokens, reports) ∧
      (∀ before t after, tokens = before ++ t :: after →
        ∀ line front rest, s.lines.get? t.range.line = some line → line.text = front ++ '\'' :: rest →
          t.range.start = Text.byteLength front →
          (∀ c, LiteralBehind before c rest → t.kind = .character ∧ s.spelling t = ['\'', c, '\'']) ∧
          ((∀ c, ¬ LiteralBehind before c rest) → t.kind = .symbol .tick ∧ s.spelling t = ['\''])) ∧
      ∀ t ∈ tokens, (s.spelling t).head? = some '\\' → t.kind = .identifier := by
  refine ⟨_, _, Source.tokenize_eq nonempty, ?_, fun t mem escaped => ?_⟩
  · intro before t after split line front rest here text start
    obtain ⟨later, tokens⟩ := Source.token_of_text nonempty split here text start
    obtain ⟨line', front', c, rest', here', text', start', kind, spelled⟩ := Source.exists_read_of_token tokens
    obtain rfl : line = line' := Option.some.inj (here.symm.trans here')
    obtain ⟨rfl, same⟩ := Text.append_inj_of_byteLength (text.symm.trans text') (start.symm.trans start')
    obtain ⟨rfl, rfl⟩ := List.cons.inj same
    rw [← spelled]
    constructor
    · intro c literal
      obtain ⟨more, read⟩ := literal.read
      rw [read] at kind ⊢
      exact ⟨(Option.some.inj kind).symm, rfl⟩
    · intro none_behind
      have no_literal : ¬ CharacterStarts (before.getLast?.map (·.kind)) ('\'' :: rest) := by
        intro starts
        obtain ⟨c, literal⟩ := LiteralBehind.of_characterStarts starts
        exact none_behind c literal
      rw [Lexeme.read_tick no_literal] at kind ⊢
      exact ⟨(Option.some.inj kind).symm, rfl⟩
  · rcases List.mem_append.mp mem with scanned | at_end
    · obtain ⟨before, after, split⟩ := List.append_of_mem scanned
      obtain ⟨_, _, c, rest, -, -, -, kind, spelled⟩ := Source.exists_read_of_token split
      have whole := Lexeme.read_append (before.getLast?.map (·.kind)) c rest
      obtain ⟨more, text⟩ := List.head?_eq_some_iff.mp escaped
      rw [spelled, text] at whole
      obtain rfl := (List.cons.inj whole).1
      exact Lexeme.kind_of_backslash kind
    · rw [List.mem_singleton.mp at_end, (Source.eofToken_between nonempty).2.1] at escaped
      exact nomatch escaped

/-- A literal starts the source, and no literal follows the name, though a line ends in between. -/
theorem tick_rule_across_lines :
    ∃ literal name tick later reports,
      (Source.mk (.ofList [⟨.code, "'a' b".toList⟩, ⟨.code, "'c'".toList⟩]) 1).tokenize =
        .ok (literal :: name :: tick :: later, reports) ∧
      literal.kind = .character ∧ name.kind = .identifier ∧ tick.kind = .symbol .tick := by
  have tokenized : (Source.mk (.ofList [⟨.code, "'a' b".toList⟩, ⟨.code, "'c'".toList⟩]) 1).tokenize = .ok
      ([⟨.character, ⟨1, 1⟩, ⟨0, 0, 3⟩⟩, ⟨.identifier, ⟨1, 5⟩, ⟨0, 4, 1⟩⟩, ⟨.symbol .tick, ⟨2, 1⟩, ⟨1, 0, 1⟩⟩,
        ⟨.identifier, ⟨2, 2⟩, ⟨1, 1, 1⟩⟩, ⟨.symbol .tick, ⟨2, 3⟩, ⟨1, 2, 1⟩⟩, ⟨.eof, ⟨2, 4⟩, ⟨1, 3, 0⟩⟩], []) := by
    decide +kernel
  obtain ⟨_, _, same, rule, -⟩ :=
    tick_rule (s := ⟨.ofList [⟨.code, "'a' b".toList⟩, ⟨.code, "'c'".toList⟩], 1⟩) (by decide)
  obtain ⟨rfl, rfl⟩ := Prod.mk.inj (Except.ok.inj (tokenized.symm.trans same))
  have literal := (rule [] _ _ rfl _ [] "a' b".toList rfl rfl rfl).1 'a' ⟨nofun, ⟨_, rfl⟩, by decide⟩
  have tick := (rule [_, _] _ _ rfl _ [] "c'".toList rfl rfl rfl).2 fun c behind =>
    behind.no_name _ rfl (by simp)
  exact ⟨_, _, _, _, _, tokenized, literal.1, rfl, tick.1⟩

end VhdlFrontEnd
