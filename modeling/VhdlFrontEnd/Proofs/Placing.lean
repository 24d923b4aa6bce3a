import VhdlFrontEnd.Proofs.Pieces
import VhdlFrontEnd.Scan

/-!
# Where pieces stand

Every piece of a scan stands on a code line, right after the text before it (`stands_of_mem_scan`),
and no later than the pieces that follow it (`scan_ordered`). `scan_on_line` shows that the scan of
one line depends on the lines before it only through the kind of the last token.
-/

namespace VhdlFrontEnd

/-! ### Lines and their indices -/

theorem Arena.mem_enumerated {α : Type} {a : Arena α} {i : Nat} {x : α} :
    (i, x) ∈ a.enumerated ↔ a.get? i = some x := by
  simp only [enumerated, get?_eq, List.mem_map, Prod.exists, List.mem_zipIdx_iff_getElem?,
    Prod.mk.injEq]
  constructor
  · rintro ⟨y, j, found, rfl, rfl⟩
    exact found
  · exact fun found => ⟨x, i, found, rfl, rfl⟩

theorem Arena.enumerated_sorted {α : Type} (a : Arena α) :
    a.enumerated.Pairwise fun x y => x.1 < y.1 := by
  rw [enumerated, List.pairwise_map, ← List.pairwise_map (f := Prod.snd) (R := (· < ·)),
    List.zipIdx_map_snd]
  exact List.pairwise_lt_range'

namespace Source

theorem mem_codeLines {s : Source} {i : Nat} {line : Line} :
    (i, line) ∈ s.codeLines ↔ s.lines.get? i = some line ∧ line.category.isCode := by
  rw [codeLines, List.mem_filter, Arena.mem_enumerated]

theorem codeLines_sorted (s : Source) : s.codeLines.Pairwise fun x y => x.1 < y.1 :=
  s.lines.enumerated_sorted.filter _

end Source

/-! ### Places on one line -/

namespace Place

@[simp] theorem after_nil (w : Nat) (p : Place) : p.after w [] = p := rfl

theorem after_after (w : Nat) (p : Place) (a b : List Char) :
    (p.after w a).after w b = p.after w (a ++ b) := by
  simp [after, Nat.add_assoc]

@[simp] theorem line_after (w : Nat) (p : Place) (a : List Char) : (p.after w a).line = p.line := rfl

theorem after_lineStart (w i : Nat) (before : List Char) :
    (lineStart i).after w before = ⟨i, Text.byteLength before, Text.columnAfter w before⟩ := by
  simp [after, lineStart, Text.columnAfter, Nat.add_comm]

end Place

/-- The first piece ends no later than the second starts. -/
def Located.Before (l m : Located) : Prop :=
  l.start.line < m.start.line ∨
    l.start.line = m.start.line ∧ l.stop.offset ≤ m.start.offset ∧ l.stop.column ≤ m.start.column

variable {w : Nat} {l : Located}

/-- A piece is located right after the pieces before it. -/
theorem mem_locate {start : Place} {ps : List Piece} (h : l ∈ locate w start ps) :
    ∃ before after, ps = before ++ l.piece :: after ∧
      l.start = start.after w (Piece.texts before) ∧ l.stop = l.start.after w l.piece.text := by
  induction ps generalizing start with
  | nil => exact nomatch h
  | cons p ps ih =>
    rw [locate] at h
    rcases List.mem_cons.mp h with rfl | later
    · exact ⟨[], ps, rfl, rfl, rfl⟩
    · obtain ⟨before, after, rfl, starts, stops⟩ := ih later
      refine ⟨p :: before, after, rfl, ?_, stops⟩
      rw [starts, Place.after_after, Piece.texts_cons]

theorem locate_append (w : Nat) (start : Place) (ps qs : List Piece) :
    locate w start (ps ++ qs) =
      locate w start ps ++ locate w (start.after w (Piece.texts ps)) qs := by
  induction ps generalizing start with
  | nil => rfl
  | cons p ps ih =>
    rw [List.cons_append, locate, ih, Place.after_after]
    rfl

/-- Each part of a scan is the scan of its own pieces. -/
theorem locate_split {start : Place} {ps : List Piece} {earlier later : List Located}
    (split : locate w start ps = earlier ++ l :: later) :
    ps = earlier.map (·.piece) ++ l.piece :: later.map (·.piece) ∧
      earlier = locate w start (earlier.map (·.piece)) ∧
      l.start = start.after w (Piece.texts (earlier.map (·.piece))) ∧
      l.stop = l.start.after w l.piece.text ∧ later = locate w l.stop (later.map (·.piece)) := by
  have pieces : ps = earlier.map (·.piece) ++ l.piece :: later.map (·.piece) := by
    rw [← map_piece_locate w start ps, split, List.map_append, List.map_cons]
  refine ⟨pieces, ?_⟩
  rw [pieces, locate_append, locate] at split
  have same_length : (locate w start (earlier.map (·.piece))).length = earlier.length := by
    rw [← List.length_map (·.piece), map_piece_locate, List.length_map]
  obtain ⟨before, here⟩ := List.append_inj split same_length
  obtain ⟨same, behind⟩ := List.cons.inj here
  have start_here := (congrArg Located.start same).symm
  have stop_here := (congrArg Located.stop same).symm
  refine ⟨before.symm, start_here, ?_, ?_⟩
  · rw [stop_here, start_here]
  · rw [stop_here]
    exact behind.symm

theorem locate_bounds {start : Place} {ps : List Piece} (h : l ∈ locate w start ps) :
    l.start.line = start.line ∧ start.offset ≤ l.start.offset ∧ start.column ≤ l.start.column := by
  obtain ⟨before, _, -, starts, -⟩ := mem_locate h
  rw [starts]
  exact ⟨rfl, Nat.le_add_right _ _, Nat.le_add_right _ _⟩

theorem locate_ordered (w : Nat) (start : Place) (ps : List Piece) :
    (locate w start ps).Pairwise Located.Before := by
  induction ps generalizing start with
  | nil => exact List.Pairwise.nil
  | cons p ps ih =>
    rw [locate]
    refine List.pairwise_cons.mpr ⟨fun m later => Or.inr ?_, ih _⟩
    obtain ⟨line, offset, column⟩ := locate_bounds later
    exact ⟨line.symm, offset, column⟩

/-! ### Places on all lines -/

/-- The kind of the last token after some lines. -/
def kindAfter (previous? : Option TokenKind) (lines : List (Nat × Line)) : Option TokenKind :=
  lines.foldl
    (fun kind? line => (Piece.pieces kind? line.2.text).foldl Piece.previousAfter kind?) previous?

theorem kindAfter_cons (previous? : Option TokenKind) (line : Nat × Line) (lines : List (Nat × Line)) :
    kindAfter previous? (line :: lines) =
      kindAfter ((Piece.pieces previous? line.2.text).foldl Piece.previousAfter previous?) lines := rfl

theorem line_of_mem_scanLines {previous? : Option TokenKind} {lines : List (Nat × Line)}
    (h : l ∈ scanLines w previous? lines) : ∃ line, (l.start.line, line) ∈ lines := by
  induction lines generalizing previous? with
  | nil => exact nomatch h
  | cons first lines ih =>
    obtain ⟨i, line⟩ := first
    rw [scanLines] at h
    rcases List.mem_append.mp h with here | later
    · have same : l.start.line = i := (locate_bounds here).1
      exact ⟨line, by rw [same]; exact List.mem_cons_self⟩
    · obtain ⟨other, mem⟩ := ih later
      exact ⟨other, List.mem_cons_of_mem _ mem⟩

theorem stop_of_mem_scanLines {previous? : Option TokenKind} {lines : List (Nat × Line)}
    (h : l ∈ scanLines w previous? lines) : l.stop = l.start.after w l.piece.text := by
  induction lines generalizing previous? with
  | nil => exact nomatch h
  | cons first lines ih =>
    rw [scanLines] at h
    rcases List.mem_append.mp h with here | later
    · obtain ⟨-, -, -, -, stops⟩ := mem_locate here
      exact stops
    · exact ih later

theorem scanLines_ordered {lines : List (Nat × Line)} (sorted : lines.Pairwise fun x y => x.1 < y.1)
    (previous? : Option TokenKind) : (scanLines w previous? lines).Pairwise Located.Before := by
  induction lines generalizing previous? with
  | nil => exact List.Pairwise.nil
  | cons first lines ih =>
    obtain ⟨i, line⟩ := first
    obtain ⟨above, sorted⟩ := List.pairwise_cons.mp sorted
    rw [scanLines]
    refine List.pairwise_append.mpr ⟨locate_ordered _ _ _, ih sorted _, ?_⟩
    intro x here y later
    obtain ⟨other, mem⟩ := line_of_mem_scanLines later
    have least : x.start.line = i := (locate_bounds here).1
    exact Or.inl (by rw [least]; exact above _ mem)

/-- Of the pieces of all lines, those on line `i` are the pieces of that line. -/
theorem filter_scanLines {lines : List (Nat × Line)} (sorted : lines.Pairwise fun x y => x.1 < y.1)
    {i : Nat} {line : Line} (mem : (i, line) ∈ lines) (previous? : Option TokenKind) :
    (scanLines w previous? lines).filter (·.start.line == i) =
      locate w (.lineStart i)
        (Piece.pieces (kindAfter previous? (lines.filter (·.1 < i))) line.text) := by
  induction lines generalizing previous? with
  | nil => exact nomatch mem
  | cons first lines ih =>
    obtain ⟨j, text⟩ := first
    obtain ⟨above, sorted⟩ := List.pairwise_cons.mp sorted
    rw [scanLines, List.filter_append]
    rcases List.mem_cons.mp mem with same | later
    · obtain ⟨rfl, rfl⟩ := Prod.mk.inj same
      have none_below : ((i, line) :: lines).filter (·.1 < i) = [] := by
        rw [List.filter_eq_nil_iff]
        intro x hx
        rcases List.mem_cons.mp hx with rfl | hx
        · simp
        · have := above x hx
          simp only [decide_eq_true_eq]
          omega
      have here : (locate w (.lineStart i) (Piece.pieces previous? line.text)).filter
          (·.start.line == i) = locate w (.lineStart i) (Piece.pieces previous? line.text) := by
        rw [List.filter_eq_self]
        intro x hx
        exact beq_iff_eq.mpr (locate_bounds hx).1
      have elsewhere : ∀ kind?, (scanLines w kind? lines).filter (·.start.line == i) = [] := by
        intro kind?
        rw [List.filter_eq_nil_iff]
        intro x hx
        obtain ⟨other, hmem⟩ := line_of_mem_scanLines hx
        have := above _ hmem
        simp only [beq_iff_eq]
        omega
      rw [none_below, here, elsewhere, List.append_nil]
      rfl
    · have below : j < i := above _ later
      have elsewhere : (locate w (.lineStart j) (Piece.pieces previous? text.text)).filter
          (·.start.line == i) = [] := by
        rw [List.filter_eq_nil_iff]
        intro x hx
        have : x.start.line = j := (locate_bounds hx).1
        simp only [beq_iff_eq]
        omega
      rw [elsewhere, List.nil_append, ih sorted later, List.filter_cons_of_pos (by simpa using below),
        kindAfter_cons]

namespace Source

variable {s : Source} {i : Nat} {line : Line}

/-- The kind of the last token on the lines before line `i`. -/
def kindBefore (s : Source) (i : Nat) : Option TokenKind :=
  kindAfter none (s.codeLines.filter (·.1 < i))

theorem scan_on_line (here : s.lines.get? i = some line) (code : line.category.isCode) :
    s.scan.filter (·.start.line == i) =
      locate s.scanTabWidth (.lineStart i) (Piece.pieces (s.kindBefore i) line.text) :=
  filter_scanLines s.codeLines_sorted (mem_codeLines.mpr ⟨here, code⟩) none

theorem line_of_mem_scan (h : l ∈ s.scan) :
    ∃ line, s.lines.get? l.start.line = some line ∧ line.category.isCode := by
  obtain ⟨line, mem⟩ := line_of_mem_scanLines h
  exact ⟨line, mem_codeLines.mp mem⟩

theorem scan_off_code (here : s.lines.get? i = some line) (other : ¬ line.category.isCode) :
    s.scan.filter (·.start.line == i) = [] := by
  rw [List.filter_eq_nil_iff]
  intro l mem same
  obtain ⟨found, at_line, code⟩ := line_of_mem_scan mem
  rw [beq_iff_eq.mp same, here] at at_line
  exact other (Option.some.inj at_line ▸ code)

theorem scan_ordered (s : Source) : s.scan.Pairwise Located.Before :=
  scanLines_ordered s.codeLines_sorted none

end Source

/-- A piece of a scan on its line: it stands between `before` and `after`, at the place after
`before`, and is borne out by its text. -/
structure Located.Stands (s : Source) (l : Located) (line : Line) (before after : List Char) : Prop where
  found : s.lines.get? l.start.line = some line
  code : line.category.isCode
  text : line.text = before ++ l.piece.text ++ after
  start : l.start = (Place.lineStart l.start.line).after s.scanTabWidth before
  stop : l.stop = l.start.after s.scanTabWidth l.piece.text
  nonempty : l.piece.text ≠ []
  sound : l.piece.Sound after

theorem Source.stands_of_mem_scan {s : Source} (h : l ∈ s.scan) :
    ∃ line before after, l.Stands s line before after := by
  obtain ⟨line, here, code⟩ := line_of_mem_scan h
  have onLine : l ∈ s.scan.filter (·.start.line == l.start.line) := List.mem_filter.mpr ⟨h, by simp⟩
  rw [scan_on_line here code] at onLine
  obtain ⟨before, after, cut, starts, stops⟩ := mem_locate onLine
  refine ⟨line, Piece.texts before, Piece.texts after, here, code, ?_, starts, stops,
    Piece.ne_nil_of_pieces cut, Piece.pieces_sound cut⟩
  have whole := Piece.texts_pieces (s.kindBefore l.start.line) line.text
  rw [cut] at whole
  simpa using whole.symm

end VhdlFrontEnd
