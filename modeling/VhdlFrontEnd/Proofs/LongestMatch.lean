import VhdlFrontEnd.Proofs.Below
import VhdlFrontEnd.Proofs.Tokens

/-!
# The longest symbol

Where a lexeme starts, it is the longest symbol that stands there, unless a character literal starts at
an apostrophe; and every token that is a symbol is read this way (`symbols_longest`).
-/

namespace VhdlFrontEnd

/-- The symbol stands at the front of the text, and no longer one does. -/
def Symbol.LongestAt (s : Symbol) (rest : List Char) : Prop :=
  s.spelling.toList <+: rest ∧
    ∀ t : Symbol, t.spelling.toList <+: rest → t.spelling.toList.length ≤ s.spelling.toList.length

theorem Symbol.longest?_eq_some_iff {s : Symbol} {rest : List Char} :
    longest? rest = some s ↔ s.LongestAt rest :=
  ⟨longest?_eq_some, fun longest => longest?_of_front longest.1 longest.2⟩

theorem Symbol.exists_longestAt {s : Symbol} {rest : List Char} (front : s.spelling.toList <+: rest) :
    ∃ t : Symbol, t.LongestAt rest := by
  cases found : longest? rest with
  | none => exact absurd front (longest?_eq_none.mp found s)
  | some t => exact ⟨t, longest?_eq_some_iff.mp found⟩

/-- A character literal starts at the front of the text: there is a graphic character between
apostrophes, and the last token before it ends no name. -/
def CharacterStarts (previous? : Option TokenKind) (rest : List Char) : Prop :=
  ¬ previous?.any TokenKind.endsName ∧ ∃ c more, rest = '\'' :: c :: '\'' :: more ∧ Text.isGraphic c

/-! ### One lexeme -/

namespace Lookahead

/-- No other family of lexemes starts with a character that starts a symbol. -/
theorem first_of_mem {c : Char} {l : Lookahead} (mem : (c, l) ∈ table) :
    c ≠ '\'' ∧ c ≠ '"' ∧ c ≠ '\\' ∧ ¬ c.isDigit ∧ ¬ Text.isWordStart c := by
  have each : ∀ entry ∈ table, entry.1 ≠ '\'' ∧ entry.1 ≠ '"' ∧ entry.1 ≠ '\\' ∧ ¬ entry.1.isDigit ∧
      ¬ Text.isWordStart entry.1 := by
    decide +kernel
  exact each (c, l) mem

end Lookahead

namespace Lexeme

variable {previous? : Option TokenKind} {c : Char} {rest : List Char} {s : Symbol}

theorem read_of_known {l : Lookahead} (known : Lookahead.of? c = some l) :
    read previous? c rest =
      ⟨.token (.symbol (l.find rest).2), (l.find rest).2.spelling.toList, rest.drop (l.find rest).1.length⟩ := by
  obtain ⟨quote, string, extended, digit, starts⟩ := Lookahead.first_of_mem (Lookahead.mem_of_of? known)
  rw [read, if_neg quote, if_neg string, if_neg extended, if_neg digit, if_neg starts, symbol, known,
    (Lookahead.spelling_find known rest).1]

theorem read_tick (no_literal : ¬ CharacterStarts previous? ('\'' :: rest)) :
    read previous? '\'' rest = ⟨.token (.symbol .tick), ['\''], rest⟩ := by
  rw [read, if_pos rfl]
  unfold apostrophe
  split
  · next c more =>
    refine if_neg fun literal => no_literal ?_
    rw [Bool.and_eq_true, Bool.not_eq_true'] at literal
    exact ⟨by simp [literal.1], c, more, rfl, literal.2⟩
  · rfl

theorem read_character (literal : CharacterStarts previous? (c :: rest)) :
    (read previous? c rest).lexeme.kind? = some .character := by
  obtain ⟨no_name, d, more, cut, graphic⟩ := literal
  obtain ⟨rfl, rfl⟩ := List.cons.inj cut
  rw [read, if_pos rfl, apostrophe, if_pos (by simp [no_name, graphic])]
  rfl

/-- What is read as a symbol is spelled as it. -/
theorem text_of_symbol (kind : (read previous? c rest).lexeme.kind? = some (.symbol s)) :
    (read previous? c rest).text = s.spelling.toList := by
  have sound := read_sound previous? c rest
  cases reading : read previous? c rest with
  | mk lexeme text after =>
    rw [reading] at sound kind
    cases sound with
    | token spells =>
      cases kind
      cases spells
      rfl
    | openString => exact nomatch kind
    | dropped => exact nomatch kind

/-- Where no comment starts, the longest symbol is read, but for a character literal. -/
theorem read_symbol_iff (comment : Piece.comment? (c :: rest) = none) :
    (read previous? c rest).lexeme.kind? = some (.symbol s) ↔
      s.LongestAt (c :: rest) ∧ ¬ CharacterStarts previous? (c :: rest) := by
  rw [← Symbol.longest?_eq_some_iff]
  by_cases quote : c = '\''
  · subst quote
    rw [Lookahead.longest?_apostrophe]
    by_cases literal : CharacterStarts previous? ('\'' :: rest)
    · rw [read_character literal]
      simp [literal]
    · rw [read_tick literal]
      simp [kind?, literal]
  · have no_literal : ¬ CharacterStarts previous? (c :: rest) := by
      rintro ⟨-, d, more, cut, -⟩
      exact quote (List.cons.inj cut).1
    rw [and_iff_left no_literal]
    cases known : Lookahead.of? c with
    | some l =>
      rw [read_of_known known, Lookahead.longest?_of_find known (Piece.no_comment comment).2]
      simp [kind?]
    | none =>
      have unknown := Lookahead.longest?_of_unknown known quote rest
      rw [unknown]
      refine iff_of_false (fun kind => ?_) (Option.some_ne_none s).symm
      have front : s.spelling.toList <+: c :: rest := by
        rw [← text_of_symbol kind]
        exact ⟨_, read_append previous? c rest⟩
      exact Symbol.longest?_eq_none.mp unknown s front

end Lexeme

/-! ### All lexemes -/

namespace Piece

variable {previous? : Option TokenKind} {c : Char} {rest : List Char} {p : Piece}

/-- A piece that is no gap is read where neither sort of comment starts. -/
theorem first_of_lexeme (found : (first previous? c rest).1 = p) (lexeme : ¬ p.isGap) :
    comment? (c :: rest) = none ∧ p.kind? = (Lexeme.read previous? c rest).lexeme.kind? ∧
      p.text = (Lexeme.read previous? c rest).text := by
  rcases first_cases previous? c rest with gap | ⟨comment, same⟩
  · rw [found] at gap
    obtain ⟨sort, text⟩ := p
    generalize (first previous? c rest).2 = after at gap
    cases gap <;> exact absurd rfl lexeme
  · rw [same] at found
    subst found
    exact ⟨comment, rfl, rfl⟩

end Piece

/-- The pieces before one of a scan fix what is read there: it is the first piece of the rest of its
line, under the kind of the last token before it. -/
theorem scanLines_split {w : Nat} {previous? : Option TokenKind} {lines : List (Nat × Line)}
    {earlier later : List Located} {l : Located} (split : scanLines w previous? lines = earlier ++ l :: later) :
    ∃ line before c rest, (l.start.line, line) ∈ lines ∧ line.text = before ++ c :: rest ∧
      l.start = (Place.lineStart l.start.line).after w before ∧
      (Piece.first ((earlier.map (·.piece)).foldl Piece.previousAfter previous?) c rest).1 = l.piece := by
  induction lines generalizing previous? earlier with
  | nil => exact absurd split.symm (List.append_ne_nil_of_right_ne_nil _ (List.cons_ne_nil _ _))
  | cons first lines ih =>
    obtain ⟨i, line⟩ := first
    rw [scanLines] at split
    have on_line : (∃ between, earlier = locate w (.lineStart i) (Piece.pieces previous? line.text) ++ between ∧
        scanLines w ((Piece.pieces previous? line.text).foldl Piece.previousAfter previous?) lines =
          between ++ l :: later) ∨
        ∃ between, locate w (.lineStart i) (Piece.pieces previous? line.text) = earlier ++ l :: between := by
      rcases List.append_eq_append_iff.mp split with ⟨between, before, behind⟩ | ⟨between, here, behind⟩
      · exact Or.inl ⟨between, before, behind⟩
      · cases between with
        | nil => exact Or.inl ⟨[], by rw [here, List.append_nil, List.append_nil], behind.symm⟩
        | cons first between =>
          obtain ⟨rfl, -⟩ := List.cons.inj behind
          exact Or.inr ⟨between, here⟩
    rcases on_line with ⟨between, rfl, behind⟩ | ⟨between, here⟩
    · -- On a later line, all tokens of this line come before it.
      obtain ⟨other, before, c, rest, mem, text, start, read⟩ := ih behind
      refine ⟨other, before, c, rest, List.mem_cons_of_mem _ mem, text, start, ?_⟩
      rw [List.map_append, List.foldl_append, map_piece_locate]
      exact read
    · obtain ⟨pieces, -, start, -, -⟩ := locate_split here
      obtain ⟨c, rest, text, read, -⟩ := Piece.pieces_eq_cons (Piece.pieces_split pieces)
      have whole := Piece.texts_pieces previous? line.text
      rw [pieces, Piece.texts_append, text] at whole
      have same : l.start.line = i := by rw [start]; rfl
      refine ⟨line, _, c, rest, ?_, whole.symm, ?_, ?_⟩
      · rw [same]
        exact List.mem_cons_self
      · rw [same]
        exact start
      · rw [read]

/-- The kind of the last token among the pieces. -/
def lastKind (ls : List Located) : Option TokenKind := (ls.filterMap (·.token?)).getLast?.map (·.kind)

theorem foldl_previousAfter_located (ls : List Located) :
    (ls.map (·.piece)).foldl Piece.previousAfter none = lastKind ls := by
  rw [foldl_previousAfter, ← map_kind_scan, lastKind, List.getLast?_map, Option.or_none]

/-- The piece stands on a line of code, at the front of `rest`. -/
structure Located.StandsAt (s : Source) (l : Located) (before rest : List Char) : Prop where
  line : ∃ line, s.lines.get? l.start.line = some line ∧ line.category = .code ∧ line.text = before ++ rest
  offset : l.start.offset = Text.byteLength before
  text : l.piece.text <+: rest

/-- Where a piece of a source that is no gap stands, no comment starts. It is a token for a symbol if
some symbol stands there and no character literal starts: for the longest, and it covers no more than
that. In no other way a token for a symbol comes about. The end of the file stands past the last line. -/
theorem symbols_longest {s : Source} (nonempty : 0 < s.lineCount) :
    (∃ reports, s.tokenize = .ok (s.scan.filterMap (·.token?) ++ [s.eofToken], reports)) ∧
    (∃ last, s.eofToken.Between s last last.text []) ∧
    ∀ earlier l later, s.scan = earlier ++ l :: later → ¬ l.piece.isGap →
      ∃ before rest, l.StandsAt s before rest ∧ ¬ ['-', '-'] <+: rest ∧ ¬ ['/', '*'] <+: rest ∧
        ((∃ symbol : Symbol, symbol.spelling.toList <+: rest) → ¬ CharacterStarts (lastKind earlier) rest →
          ∃ symbol t, symbol.LongestAt rest ∧ l.token? = some t ∧ t.kind = .symbol symbol ∧
            l.piece.text = symbol.spelling.toList ∧ s.spelling t = symbol.spelling.toList) ∧
        ∀ symbol t, l.token? = some t → t.kind = .symbol symbol →
          symbol.LongestAt rest ∧ ¬ CharacterStarts (lastKind earlier) rest := by
  obtain ⟨-, -, last, at_end, -⟩ := Source.eofToken_between nonempty
  refine ⟨⟨_, Source.tokenize_eq nonempty⟩, ⟨last, at_end⟩, fun earlier l later split lexeme => ?_⟩
  obtain ⟨line, before, c, rest, mem, text, start, read⟩ := scanLines_split split
  rw [foldl_previousAfter_located] at read
  obtain ⟨comment, kind, piece⟩ := Piece.first_of_lexeme read lexeme
  obtain ⟨found, code⟩ := Source.mem_codeLines.mp mem
  obtain ⟨dashes, opener⟩ := Piece.no_comment comment
  refine ⟨before, c :: rest, ⟨⟨line, found, Category.isCode_iff.mp code, text⟩, ?_, ?_⟩, ?_, ?_, ?_, ?_⟩
  · rw [start]
    exact Nat.zero_add _
  · rw [piece]
    exact ⟨_, Lexeme.read_append _ c rest⟩
  · rw [Source.pair_prefix_cons]
    exact dashes
  · rw [Source.pair_prefix_cons]
    exact opener
  · rintro ⟨some_symbol, front⟩ no_literal
    obtain ⟨symbol, longest⟩ := Symbol.exists_longestAt front
    have is_symbol := (Lexeme.read_symbol_iff comment).mpr ⟨longest, no_literal⟩
    have spelled := piece.trans (Lexeme.text_of_symbol is_symbol)
    obtain ⟨t, given⟩ : ∃ t, l.token? = some t := by rw [Located.token?, kind, is_symbol]; exact ⟨_, rfl⟩
    obtain ⟨_, _, _, stands⟩ := Source.stands_of_mem_scan (split ▸ List.mem_append_right _ List.mem_cons_self)
    obtain ⟨kind', -⟩ := Located.token?_eq_some given
    rw [kind, is_symbol] at kind'
    exact ⟨symbol, t, longest, given, (Option.some.inj kind').symm, spelled,
      (Located.spelling_of_stands stands given).trans spelled⟩
  · intro symbol t given same
    obtain ⟨kind', -⟩ := Located.token?_eq_some given
    rw [kind, same] at kind'
    exact (Lexeme.read_symbol_iff comment).mp kind'

/-- After a name the longest symbol at an apostrophe is read even where a literal could start. -/
theorem symbols_longest_after_name :
    ∃ earlier l later, (Source.mk (.ofList [⟨.code, "a'b'".toList⟩]) 1).scan = earlier ++ l :: later ∧
      lastKind earlier = some .identifier ∧
      ∃ before rest, l.StandsAt (.mk (.ofList [⟨.code, "a'b'".toList⟩]) 1) before rest ∧
        Symbol.tick.LongestAt rest ∧ ¬ CharacterStarts (some .identifier) rest := by
  have split : (Source.mk (.ofList [⟨.code, "a'b'".toList⟩]) 1).scan =
      [⟨⟨.lexeme (.token .identifier), ['a']⟩, ⟨0, 0, 1⟩, ⟨0, 1, 2⟩⟩] ++
        ⟨⟨.lexeme (.token (.symbol .tick)), ['\'']⟩, ⟨0, 1, 2⟩, ⟨0, 2, 3⟩⟩ ::
        [⟨⟨.lexeme (.token .identifier), ['b']⟩, ⟨0, 2, 3⟩, ⟨0, 3, 4⟩⟩,
          ⟨⟨.lexeme (.token (.symbol .tick)), ['\'']⟩, ⟨0, 3, 4⟩, ⟨0, 4, 5⟩⟩] := by
    decide +kernel
  have last : lastKind [⟨⟨.lexeme (.token .identifier), ['a']⟩, ⟨0, 0, 1⟩, ⟨0, 1, 2⟩⟩] = some .identifier := rfl
  obtain ⟨-, -, lexemes⟩ := symbols_longest (s := ⟨.ofList [⟨.code, "a'b'".toList⟩], 1⟩) (by decide)
  obtain ⟨before, rest, stands, -, -, -, only⟩ := lexemes _ _ _ split (by decide)
  obtain ⟨longest, no_literal⟩ := only .tick _ rfl rfl
  exact ⟨_, _, _, split, last, before, rest, stands, longest, last ▸ no_literal⟩

end VhdlFrontEnd
