import Mathlib.Data.List.Basic
import VhdlFrontEnd.Proofs.Tokens

/-!
# The order of tokens

A token follows another when it starts at a later position and, on the same line, no earlier than
the other ends, in bytes and in columns. `tokens_follow` shows that every token of a loaded source
follows those before it, stands where its position says, and that the end of the file comes last.
-/

namespace VhdlFrontEnd

/-- The second token follows the first without an overlap. -/
structure Token.Follows (w : Nat) (s : Source) (t u : Token) : Prop where
  position : t.position.compare u.position = .lt
  apart : t.range.line = u.range.line → t.range.stop ≤ u.range.start ∧
    t.position.column + Text.width w (s.spelling t) ≤ u.position.column

/-- The range of the token lies between characters of a line, and its position is the line's
number and the column after the text before the range. -/
def Token.Placed (w : Nat) (s : Source) (t : Token) : Prop :=
  ∃ line before after, t.Between s line before after ∧
    t.position = ⟨t.range.line + 1, 1 + Text.width w before⟩

namespace Source

variable {s : Source} {t : Token}

theorem placed_of_scan (mem : t ∈ s.scan.filterMap (·.token?)) :
    t.kind ≠ .eof ∧ t.Placed s.scanTabWidth s := by
  obtain ⟨l, line, before, after, -, given, stands⟩ := stands_of_token mem
  obtain ⟨-, position, range⟩ := Located.token?_eq_some given
  refine ⟨stands.kind_ne_eof given, line, before, after, stands.between given, ?_⟩
  rw [position, stands.position, range, Text.columnAfter, Nat.add_comm 1]

/-- Pieces that stand one before the other give tokens of which the second follows the first. -/
theorem follows_of_before {l m : Located} {u : Token} {line : Line} {before after : List Char}
    (ordered : l.Before m) (stands : l.Stands s line before after)
    (first : l.token? = some t) (second : m.token? = some u) : t.Follows s.scanTabWidth s u := by
  obtain ⟨-, firstPosition, firstRange⟩ := Located.token?_eq_some first
  obtain ⟨-, secondPosition, secondRange⟩ := Located.token?_eq_some second
  constructor
  · rw [firstPosition, secondPosition]
    exact ordered.position_lt stands
  · intro same
    rw [firstRange, secondRange] at same
    rcases ordered with above | ⟨-, offset, column⟩
    · exact absurd same (Nat.ne_of_lt above)
    · rw [stands.stop] at offset column
      rw [firstRange, secondRange, firstPosition, secondPosition,
        Located.spelling_of_stands stands first]
      exact ⟨offset, column⟩

theorem scan_follows (s : Source) :
    (s.scan.filterMap (·.token?)).Pairwise (Token.Follows s.scanTabWidth s) := by
  refine pairwise_scan fun l m t u hl _ ordered first second => ?_
  obtain ⟨_, _, _, stands⟩ := stands_of_mem_scan hl
  exact follows_of_before ordered stands first second

/-- The end of the file follows every other token, as it stands past the text of the last line. -/
theorem eof_follows (nonempty : 0 < s.lineCount) (tab : s.scanTabWidth = s.tabWidth)
    (mem : t ∈ s.scan.filterMap (·.token?)) : t.Follows s.tabWidth s s.eofToken := by
  obtain ⟨last, found, eof⟩ := eofToken_eq nonempty
  obtain ⟨l, line, before, after, -, given, stands⟩ := stands_of_token mem
  obtain ⟨-, position, range⟩ := Located.token?_eq_some given
  have inside : l.start.line < s.lineCount := by
    obtain ⟨bound, -⟩ := Array.getElem?_eq_some_iff.mp stands.found
    exact bound
  have on_last : l.start.line = s.lineCount - 1 → last.text = before ++ l.piece.text ++ after := by
    intro same
    have : line = last := Option.some.inj (stands.found.symm.trans (same ▸ found))
    rw [← this, stands.text]
  have wide := Located.width_pos (Nat.le_max_right s.tabWidth 1) stands.nonempty
  rw [← scanTabWidth, tab] at wide
  constructor
  · rw [eof, position, stands.position, Position.compare_eq_lt_iff, tab]
    by_cases same : l.start.line = s.lineCount - 1
    · refine Or.inr ⟨congrArg Nat.succ same, ?_⟩
      simp only [on_last same, Text.columnAfter, Text.width_append]
      omega
    · exact Or.inl (by dsimp only; omega)
  · rw [eof, range]
    intro same
    rw [Located.spelling_of_stands stands given, position, stands.position, stands.offset, tab]
    simp only [TextRange.stop, on_last same, Text.columnAfter, Text.width_append,
      Text.byteLength_append]
    omega

end Source

/-- Every token of a loaded source follows all tokens before it and is placed where it stands. The
end of the file is the last token and the only one of its kind; it is empty and stands past the
last character of the last line. -/
theorem tokens_follow {settings : SourceSettings} {code : List Char} {loaded : Loaded}
    (load : Source.ofText settings code = .ok loaded) (tab : 1 ≤ settings.tabWidth)
    (nonempty : 0 < loaded.source.lineCount) :
    ∃ tokens eof reports, loaded.source.tokenize = .ok (tokens ++ [eof], reports) ∧
      (tokens ++ [eof]).Pairwise (Token.Follows settings.tabWidth loaded.source) ∧
      (∀ t ∈ tokens ++ [eof], t.Placed settings.tabWidth loaded.source) ∧
      (∀ t ∈ tokens, t.kind ≠ .eof) ∧ eof.kind = .eof ∧ loaded.source.spelling eof = [] ∧
      eof.range.line + 1 = loaded.source.lineCount ∧
      ∃ last, eof.Between loaded.source last last.text [] ∧
        eof.position = ⟨loaded.source.lineCount, 1 + Text.width settings.tabWidth last.text⟩ := by
  have width := Source.tabWidth_ofText load
  have scanWidth := Source.scanTabWidth_ofText load tab
  obtain ⟨lastLine, spelled, last, between, position⟩ := Source.eofToken_between nonempty
  rw [width, Text.columnAfter, Nat.add_comm (Text.width _ _)] at position
  refine ⟨_, _, _, Source.tokenize_eq nonempty, ?_, fun t mem => ?_, fun t mem => ?_, rfl, spelled,
    lastLine, last, between, lastLine ▸ position⟩
  · rw [← width]
    refine List.pairwise_append.mpr ⟨?_, List.pairwise_singleton _ _, fun t mem u eof => ?_⟩
    · rw [width, ← scanWidth]
      exact Source.scan_follows _
    · rw [List.mem_singleton.mp eof]
      exact Source.eof_follows nonempty (scanWidth.trans width.symm) mem
  · rcases List.mem_append.mp mem with scanned | eof
    · rw [← scanWidth]
      exact (Source.placed_of_scan scanned).2
    · rw [List.mem_singleton.mp eof]
      exact ⟨last, last.text, [], between, position⟩
  · exact (Source.placed_of_scan mem).1

theorem tokens_follow_to_comment :
    ∃ loaded, Source.ofText { tabWidth := 4 } "x\t:= y;\n-- é".toList = .ok loaded ∧
      ∃ tokens eof reports, loaded.source.tokenize = .ok (tokens ++ [eof], reports) ∧
        (tokens ++ [eof]).Pairwise (Token.Follows 4 loaded.source) ∧
        (∀ t ∈ tokens ++ [eof], t.Placed 4 loaded.source) ∧ eof.range.line + 1 = 2 := by
  have loads : Source.ofText { tabWidth := 4 } "x\t:= y;\n-- é".toList =
      .ok ⟨⟨.ofList [⟨.code, "x\t:= y;".toList⟩, ⟨.lineComment, "-- é".toList⟩], 4⟩, []⟩ := by
    decide +kernel
  obtain ⟨tokens, eof, reports, given, follows, placed, -, -, -, last, -⟩ :=
    tokens_follow loads (by decide) (by decide)
  exact ⟨_, loads, tokens, eof, reports, given, follows, placed, last⟩

end VhdlFrontEnd
