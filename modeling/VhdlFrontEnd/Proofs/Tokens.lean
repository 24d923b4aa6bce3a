import VhdlFrontEnd.Proofs.Placing
import VhdlFrontEnd.Source.Load

/-!
# Tokens and reports of a scan

What a piece that stands on a line gives: its token stands where the piece does and is spelled by
it (`Stands.between`). Tokens and reports come in the order of their positions (`pairwise_scan`).
-/

namespace VhdlFrontEnd

theorem Category.isCode_iff {c : Category} : c.isCode ↔ c = .code := by
  cases c <;> decide

theorem Position.compare_eq_lt_iff {p q : Position} :
    p.compare q = .lt ↔ p.line < q.line ∨ p.line = q.line ∧ p.column < q.column := by
  simp [compare, Ordering.then_eq_lt, Nat.compare_eq_lt]

/-! ### A source that is loaded -/

namespace Source

theorem tabWidth_ofText {settings : SourceSettings} {code : List Char} {loaded : Loaded}
    (load : ofText settings code = .ok loaded) : loaded.source.tabWidth = settings.tabWidth := by
  unfold ofText at load
  dsimp only at load
  split at load
  · exact nomatch load
  · cases load; rfl

/-- A tab that has some width is as wide on code lines as everywhere. -/
theorem scanTabWidth_ofText {settings : SourceSettings} {code : List Char} {loaded : Loaded}
    (load : ofText settings code = .ok loaded) (tab : 1 ≤ settings.tabWidth) :
    loaded.source.scanTabWidth = settings.tabWidth := by
  rw [scanTabWidth, tabWidth_ofText load, Nat.max_eq_left tab]

variable {s : Source}

theorem lines_not_empty (nonempty : 0 < s.lineCount) : s.lines.isEmpty = false := by
  rw [Arena.isEmpty, Array.isEmpty_eq_false_iff_exists_mem]
  exact Array.size_pos_iff_exists_mem.mp nonempty

theorem tokenize_eq (nonempty : 0 < s.lineCount) :
    s.tokenize = .ok (s.scan.filterMap (·.token?) ++ [s.eofToken], s.scan.filterMap (·.report?)) := by
  rw [tokenize, isEmpty, lines_not_empty nonempty]
  rfl

theorem tokenize_of_no_line (empty : s.lineCount = 0) : s.tokenize = .error {} := by
  rw [tokenize, isEmpty, Arena.isEmpty, Array.isEmpty_iff_size_eq_zero.mpr empty]
  rfl

/-- The end of the file stands past the text of the last line, whatever the role of the line. -/
theorem eofToken_eq (nonempty : 0 < s.lineCount) :
    ∃ last, s.lines.get? (s.lineCount - 1) = some last ∧
      s.eofToken = ⟨.eof, ⟨s.lineCount - 1 + 1, Text.columnAfter s.tabWidth last.text⟩,
        ⟨s.lineCount - 1, Text.byteLength last.text, 0⟩⟩ := by
  have inside : s.lineCount - 1 < s.lineCount := Nat.sub_one_lt_of_lt nonempty
  obtain ⟨last, found⟩ : ∃ last, s.lines.get? (s.lineCount - 1) = some last :=
    ⟨s.lines.items[s.lineCount - 1], Array.getElem?_eq_getElem inside⟩
  have index : s.lines.lastIndex? = some (s.lineCount - 1) := by
    rw [Arena.lastIndex?, lines_not_empty nonempty]
    rfl
  exact ⟨last, found, by simp [eofToken, index, found]⟩

end Source

/-! ### What a piece gives -/

/-- A gap makes no token and has no fault. -/
theorem Gap.silent {sort : PieceSort} {text rest : List Char} (between : Gap sort text rest) :
    (Piece.mk sort text).kind? = none ∧ (Piece.mk sort text).fault? = none := by
  cases between <;> exact ⟨rfl, rfl⟩

theorem Piece.lexeme?_of_isGap {p : Piece} (gap : p.isGap) : p.lexeme? = none := by
  unfold isGap at gap
  unfold lexeme?
  cases sort : p.sort <;> simp [sort] at gap ⊢

theorem Located.token?_of_isGap {l : Located} (gap : l.piece.isGap) : l.token? = none := by
  rw [token?, Piece.kind?, Piece.lexeme?_of_isGap gap]
  rfl

theorem Located.report?_of_isGap {l : Located} (gap : l.piece.isGap) : l.report? = none := by
  rw [report?, Piece.fault?, Piece.lexeme?_of_isGap gap]
  rfl

theorem Piece.Sound.of_kind {p : Piece} {after : List Char} {kind : TokenKind} (sound : p.Sound after)
    (h : p.kind? = some kind) :
    (Spells kind p.text ∧ p.fault? = none ∧ (IsWord kind p.text → WordEnds after)) ∨
      (kind = .string ∧ p.fault? = some .unterminatedString ∧ OpenString p.text ∧ after = []) := by
  cases sound with
  | lexeme reading =>
    cases reading with
    | token spells ends => cases h; exact Or.inl ⟨spells, rfl, ends⟩
    | openString opened => cases h; exact Or.inr ⟨rfl, rfl, opened, rfl⟩
    | dropped _ => exact nomatch h
  | gap between => exact absurd (between.silent.1.symm.trans h) (Option.some_ne_none _).symm

/-- Only the end of the file is a token without text. -/
theorem Spells.ne_eof {kind : TokenKind} {cs : List Char} (spells : Spells kind cs) (h : cs ≠ []) :
    kind ≠ .eof := by
  rintro rfl
  cases spells
  exact h rfl

namespace Located

variable {s : Source} {l m : Located} {line : Line} {before after : List Char} {t u : Token}
  {d e : Diagnostic}

theorem token?_eq_some (h : l.token? = some t) :
    l.piece.kind? = some t.kind ∧ t.position = l.start.position ∧
      t.range = ⟨l.start.line, l.start.offset, Text.byteLength l.piece.text⟩ := by
  obtain ⟨kind, found, rfl⟩ := Option.map_eq_some_iff.mp h
  exact ⟨found, rfl, rfl⟩

theorem report?_eq_some (h : l.report? = some d) :
    ∃ fault, l.piece.fault? = some fault ∧ d.level = .error ∧ d.code? = some fault.code ∧
      d.span = ⟨l.start.position, l.stop.column - l.start.column⟩ := by
  obtain ⟨fault, found, rfl⟩ := Option.map_eq_some_iff.mp h
  exact ⟨fault, found, rfl, rfl, rfl⟩

theorem Stands.position (stands : l.Stands s line before after) :
    l.start.position = ⟨l.start.line + 1, Text.columnAfter s.scanTabWidth before⟩ := by
  rw [stands.start]
  rw [Place.after_lineStart, Place.position]

theorem Stands.offset (stands : l.Stands s line before after) :
    l.start.offset = Text.byteLength before := by
  rw [stands.start, Place.after_lineStart]

theorem Stands.kind_ne_eof (stands : l.Stands s line before after) (h : l.token? = some t) :
    t.kind ≠ .eof := by
  rcases stands.sound.of_kind (token?_eq_some h).1 with ⟨spells, -⟩ | ⟨string, -⟩
  · exact spells.ne_eof stands.nonempty
  · rw [string]
    decide

/-- The text in the range of a piece's token is the text of the piece. -/
theorem spelling_of_stands (stands : l.Stands s line before after) (h : l.token? = some t) :
    s.spelling t = l.piece.text := by
  obtain ⟨-, -, range⟩ := token?_eq_some h
  rw [Source.spelling, Source.slice, range]
  dsimp only
  rw [stands.found, stands.offset, Option.bind_some, stands.text, List.append_assoc, Text.slice?_append]
  rfl

/-- A text that is not empty takes some column, as a tab does on code lines. -/
theorem width_pos {w : Nat} (tab : 1 ≤ w) {cs : List Char} (h : cs ≠ []) : 0 < Text.width w cs := by
  cases cs with
  | nil => exact absurd rfl h
  | cons c cs =>
    have : 1 ≤ Text.charWidth w c := by unfold Text.charWidth; split <;> omega
    rw [Text.width_cons]
    omega

theorem Stands.start_lt_stop (stands : l.Stands s line before after) :
    l.start.column < l.stop.column := by
  have := width_pos (Nat.le_max_right s.tabWidth 1) stands.nonempty
  rw [stands.stop]
  exact Nat.lt_add_of_pos_right this

/-- A piece that stands before another starts at an earlier position. -/
theorem Before.position_lt (ordered : l.Before m) (stands : l.Stands s line before after) :
    l.start.position.compare m.start.position = .lt := by
  have := stands.start_lt_stop
  rw [Position.compare_eq_lt_iff]
  rcases ordered with above | ⟨same, -, column⟩
  · exact Or.inl (Nat.succ_lt_succ above)
  · exact Or.inr ⟨congrArg Nat.succ same, Nat.lt_of_lt_of_le this column⟩

end Located

/-! ### Tokens on their lines -/

/-- Every token but the end of the file is given by a piece that stands on its line. -/
theorem Source.stands_of_token {s : Source} {t : Token} (mem : t ∈ s.scan.filterMap (·.token?)) :
    ∃ l line before after, l ∈ s.scan ∧ l.token? = some t ∧ l.Stands s line before after := by
  obtain ⟨l, scanned, given⟩ := List.mem_filterMap.mp mem
  obtain ⟨line, before, after, stands⟩ := stands_of_mem_scan scanned
  exact ⟨l, line, before, after, scanned, given, stands⟩

/-- The token stands on the line between two texts, at the offset after the first. -/
structure Token.Between (s : Source) (t : Token) (line : Line) (before after : List Char) : Prop where
  found : s.lines.get? t.range.line = some line
  text : line.text = before ++ s.spelling t ++ after
  start : t.range.start = Text.byteLength before
  length : t.range.length = Text.byteLength (s.spelling t)

theorem Located.Stands.between {s : Source} {l : Located} {line : Line} {before after : List Char}
    {t : Token} (stands : l.Stands s line before after) (h : l.token? = some t) :
    t.Between s line before after := by
  obtain ⟨-, -, range⟩ := Located.token?_eq_some h
  have spelled := Located.spelling_of_stands stands h
  constructor
  · rw [range]
    exact stands.found
  · rw [spelled]
    exact stands.text
  · rw [range]
    exact stands.offset
  · rw [spelled, range]

theorem Source.eofToken_between {s : Source} (nonempty : 0 < s.lineCount) :
    s.eofToken.range.line + 1 = s.lineCount ∧ s.spelling s.eofToken = [] ∧
      ∃ last, s.eofToken.Between s last last.text [] ∧
        s.eofToken.position = ⟨s.eofToken.range.line + 1, Text.columnAfter s.tabWidth last.text⟩ := by
  obtain ⟨last, found, eof⟩ := eofToken_eq nonempty
  have cut := Text.cut?_append last.text []
  rw [List.append_nil] at cut
  have spelled : s.spelling s.eofToken = [] := by simp [spelling, slice, eof, found, Text.slice?, cut]
  have text : last.text = last.text ++ s.spelling s.eofToken ++ [] := by simp [spelled]
  refine ⟨?_, spelled, last, ⟨?_, text, ?_, ?_⟩, ?_⟩
  · rw [eof]
    exact Nat.sub_add_cancel nonempty
  · rw [eof]
    exact found
  · rw [eof]
  · rw [spelled, eof]
    rfl
  · rw [eof]

/-! ### The order of a scan -/

/-- What holds of two pieces in their order holds of what they give. -/
theorem Source.pairwise_scan {s : Source} {β : Type} {R : β → β → Prop} {give : Located → Option β}
    (step : ∀ l m x y, l ∈ s.scan → m ∈ s.scan → l.Before m → give l = some x → give m = some y → R x y) :
    (s.scan.filterMap give).Pairwise R := by
  rw [List.pairwise_filterMap]
  exact s.scan_ordered.imp_of_mem fun hl hm ordered x hx y hy => step _ _ x y hl hm ordered hx hy

theorem Source.reports_ordered (s : Source) :
    (s.scan.filterMap (·.report?)).Pairwise fun d e => d.position.compare e.position = .lt := by
  refine pairwise_scan fun l m d e hl hm ordered hd he => ?_
  obtain ⟨_, _, _, stands⟩ := stands_of_mem_scan hl
  obtain ⟨_, -, -, -, dspan⟩ := Located.report?_eq_some hd
  obtain ⟨_, -, -, -, espan⟩ := Located.report?_eq_some he
  rw [Diagnostic.position, Diagnostic.position, dspan, espan]
  exact ordered.position_lt stands

theorem Located.Before.position_ne {s : Source} {l m : Located} (ordered : l.Before m) (scanned : l ∈ s.scan) :
    l.start.position ≠ m.start.position := by
  obtain ⟨_, _, _, stands⟩ := Source.stands_of_mem_scan scanned
  have less := ordered.position_lt stands
  intro same
  rw [same, Position.compare_eq_lt_iff] at less
  omega

/-- The only report at the start of a piece is its own, if it has one. -/
theorem Source.filter_position_reports {s : Source} {l : Located} (scanned : l ∈ s.scan) :
    (s.scan.filterMap (·.report?)).filter (·.position == l.start.position) = l.report?.toList := by
  obtain ⟨earlier, later, split⟩ := List.append_of_mem scanned
  have ordered := s.scan_ordered
  rw [split] at ordered
  obtain ⟨-, from_here, across⟩ := List.pairwise_append.mp ordered
  obtain ⟨behind, -⟩ := List.pairwise_cons.mp from_here
  have elsewhere {ls : List Located} (apart : ∀ m ∈ ls, m.start.position ≠ l.start.position) :
      (ls.filterMap (·.report?)).filter (·.position == l.start.position) = [] := by
    rw [List.filter_eq_nil_iff]
    intro d mem same
    obtain ⟨m, inside, report⟩ := List.mem_filterMap.mp mem
    obtain ⟨_, -, -, -, span⟩ := Located.report?_eq_some report
    rw [Diagnostic.position, span, beq_iff_eq] at same
    exact apart m inside same
  have front := elsewhere fun m mem => (across m mem l List.mem_cons_self).position_ne
    (split ▸ List.mem_append_left _ mem : m ∈ s.scan)
  have back := elsewhere fun m mem => ((behind m mem).position_ne scanned).symm
  rw [split, List.filterMap_append, List.filter_append, front, List.nil_append, List.filterMap_cons]
  cases report : l.report? with
  | none => exact back
  | some d =>
    obtain ⟨_, -, -, -, span⟩ := Located.report?_eq_some report
    rw [List.filter_cons, if_pos (by simp [Diagnostic.position, span]), back]
    rfl

end VhdlFrontEnd
