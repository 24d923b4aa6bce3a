import VhdlFrontEnd.Proofs.Agreement
import VhdlFrontEnd.Proofs.Boundary
import VhdlFrontEnd.Proofs.Carets

/-!
# Comments on code lines are blanks

A comment on a line of code may be blanked out or cut off without a change to the tokens and the reports of the
line (`comments_are_blanks`). Where the search for openers finds one, the code before it is scanned as if the line
ended there (`code_before_opener`).
-/

namespace VhdlFrontEnd

/-- The scan of one line, under the kind of the last token before it. -/
def scanLine (w i : Nat) (previous? : Option TokenKind) (text : List Char) : List Located :=
  scanLines w previous? [(i, ⟨.code, text⟩)]

theorem scanLine_eq (w i : Nat) (previous? : Option TokenKind) (text : List Char) :
    scanLine w i previous? text = locate w (.lineStart i) (Piece.pieces previous? text) :=
  List.append_nil _

/-! ### Scans without gaps -/

/-- The pieces that are no gaps. -/
def lexemes (ls : List Located) : List Located := ls.filter (!·.piece.isGap)

/-- The pieces of a text from a place on, but for the gaps. -/
def lexemesAt (w : Nat) (start : Place) (previous? : Option TokenKind) (cs : List Char) : List Located :=
  lexemes (locate w start (Piece.pieces previous? cs))

theorem lexemes_append (ls ms : List Located) : lexemes (ls ++ ms) = lexemes ls ++ lexemes ms :=
  List.filter_append _ _

theorem lexemes_cons (l : Located) (ls : List Located) : lexemes (l :: ls) = lexemes [l] ++ lexemes ls :=
  lexemes_append [l] ls

theorem lexemes_cons_of_gap {l : Located} (gap : l.piece.isGap) (ls : List Located) :
    lexemes (l :: ls) = lexemes ls :=
  List.filter_cons_of_neg (by simp [gap])

/-- Gaps give nothing, neither tokens nor reports. -/
theorem filterMap_lexemes {β : Type} {give : Located → Option β} (silent : ∀ l, l.piece.isGap → give l = none)
    (ls : List Located) : (lexemes ls).filterMap give = ls.filterMap give := by
  rw [lexemes, List.filterMap_filter]
  refine List.filterMap_congr fun l _ => ?_
  by_cases gap : l.piece.isGap
  · rw [silent l gap]
    simp [gap]
  · simp [gap]

variable {w i : Nat} {previous? : Option TokenKind} {start start' : Place} {cs b b' front text text' : List Char}
  {ps qs : List Piece}

/-! ### Blanks -/

theorem Piece.previousAfter_of_isGap {p : Piece} (gap : p.isGap) : previousAfter previous? p = previous? := by
  rw [previousAfter, kind?, lexeme?_of_isGap gap]
  rfl

theorem Piece.blank_of_blanks {p : Piece} (cut : pieces previous? cs = p :: ps) (blanks : p.sort = .blanks) :
    ∀ c ∈ p.text, Text.isBlank c := by
  have sound : p.Sound (texts ps) := pieces_sound (cut.trans (List.nil_append _).symm)
  generalize texts ps = rest at sound
  cases sound with
  | gap gap =>
    cases gap with
    | blanks all => exact all
    | _ => exact nomatch blanks
  | lexeme _ => exact nomatch blanks

theorem lexemesAt_nil (w : Nat) (start : Place) (previous? : Option TokenKind) :
    lexemesAt w start previous? [] = [] := by
  rw [lexemesAt, Piece.pieces_nil]
  rfl

theorem lexemesAt_skip (w : Nat) (start : Place) (previous? : Option TokenKind) (cs : List Char) :
    lexemesAt w start previous? cs =
      lexemesAt w (start.after w (cs.takeWhile Text.isBlank)) previous? (cs.dropWhile Text.isBlank) := by
  cases cs with
  | nil => rfl
  | cons c cs =>
    by_cases blank : Text.isBlank c
    · rw [List.takeWhile_cons_of_pos blank, List.dropWhile_cons_of_pos blank, lexemesAt, Piece.pieces_cons,
        Piece.first, if_pos blank, Piece.previousAfter_of_isGap rfl, locate, lexemes_cons_of_gap rfl]
      rfl
    · rw [List.takeWhile_cons_of_neg blank, List.dropWhile_cons_of_neg blank, Place.after_nil]

/-- Blanks at the front of a text only move what follows them. -/
theorem lexemesAt_blanks {blanks : List Char} (all : ∀ c ∈ blanks, Text.isBlank c) (cs : List Char) :
    lexemesAt w start previous? (blanks ++ cs) = lexemesAt w (start.after w blanks) previous? cs := by
  rw [lexemesAt_skip, List.takeWhile_append_of_pos all, List.dropWhile_append_of_pos all,
    lexemesAt_skip w (start.after w blanks), Place.after_after]

/-- The pieces before a comment are cut off alike if the line ends there or blanks follow. -/
theorem lexemesAt_before_comment (cut : Piece.pieces previous? (Piece.texts ps ++ b) = ps ++ qs)
    (opens : CommentStarts b) (clear : Clear b') :
    lexemesAt w start previous? (Piece.texts ps ++ b') =
      lexemes (locate w start ps) ++
        lexemesAt w (start.after w (Piece.texts ps)) (ps.foldl Piece.previousAfter previous?) b' := by
  induction ps generalizing previous? start with
  | nil => rfl
  | cons p ps ih =>
    rw [Piece.texts_cons, List.append_assoc, List.cons_append] at cut
    rw [Piece.texts_cons, List.append_assoc, locate]
    have whole := Piece.texts_pieces previous? (p.text ++ (Piece.texts ps ++ b))
    rw [cut, Piece.texts_cons] at whole
    obtain ⟨_, _, -, -, tail⟩ := Piece.pieces_eq_cons cut
    rw [List.append_cancel_left whole] at tail
    by_cases blanks : p.sort = .blanks
    · -- The run of blanks may go on behind the front, so it is passed over and not cut off again.
      have gap : p.isGap := by simp [Piece.isGap, blanks]
      rw [Piece.previousAfter_of_isGap gap] at tail
      rw [lexemesAt_blanks (Piece.blank_of_blanks cut blanks), ih tail, lexemes_cons_of_gap gap, Place.after_after,
        List.foldl_cons, Piece.previousAfter_of_isGap gap]
    · have first_alike : lexemesAt w start previous? (p.text ++ (Piece.texts ps ++ b')) =
          lexemes [⟨p, start, start.after w p.text⟩] ++
            lexemesAt w (start.after w p.text) (Piece.previousAfter previous? p) (Piece.texts ps ++ b') := by
        rw [lexemesAt, Piece.pieces_alike opens clear cut blanks, locate, lexemes_cons]
        rfl
      rw [first_alike, ih tail, lexemes_cons ⟨p, _, _⟩ (locate w _ ps), List.append_assoc, Place.after_after]
      rfl

/-! ### What is seen of a scan -/

/-- What tokens and reports tell of a piece, but for its offset on the line. -/
def Located.sight (l : Located) : Piece × Position × Nat := (l.piece, l.start.position, l.stop.column)

theorem Located.eq_of_sight {l m : Located} (same : l.sight = m.sight) :
    l.piece = m.piece ∧ l.start.position = m.start.position ∧ l.stop.column = m.stop.column := by
  simpa [sight] using same

theorem filterMap_eq_of_map_eq {α β γ : Type} {f : α → β} {g : α → Option γ}
    (factors : ∀ x y, f x = f y → g x = g y) {xs ys : List α} (same : xs.map f = ys.map f) :
    xs.filterMap g = ys.filterMap g := by
  induction xs generalizing ys with
  | nil => rw [List.map_eq_nil_iff.mp same.symm]
  | cons x xs ih =>
    obtain ⟨y, ys, rfl, first, rest⟩ := List.map_eq_cons_iff.mp same.symm
    rw [List.filterMap_cons, List.filterMap_cons, factors x y first.symm, ih rest.symm]

theorem map_sight_locate (same : start.position = start'.position) (ps : List Piece) :
    (locate w start ps).map (·.sight) = (locate w start' ps).map (·.sight) := by
  induction ps generalizing start start' with
  | nil => rfl
  | cons p ps ih =>
    obtain ⟨line, column⟩ := Position.mk.inj same
    have same_after : (start.after w p.text).position = (start'.after w p.text).position := by
      simp only [Place.position, Place.after, column]
      rw [line]
    rw [locate, locate, List.map_cons, List.map_cons, ih same_after, Located.sight, Located.sight, same]
    simp only [Place.after, column]

theorem map_sight_lexemes (ls : List Located) :
    (lexemes ls).map (·.sight) = (ls.map (·.sight)).filter (!·.1.isGap) := by
  rw [lexemes, List.filter_map]
  rfl

theorem map_sight_lexemesAt (same : start.position = start'.position) (previous? : Option TokenKind)
    (cs : List Char) :
    (lexemesAt w start previous? cs).map (·.sight) = (lexemesAt w start' previous? cs).map (·.sight) := by
  rw [lexemesAt, lexemesAt, map_sight_lexemes, map_sight_lexemes, map_sight_locate same]

/-- The tokens of a line: of each its kind, its spelling and its position. -/
def shownTokens (w i : Nat) (previous? : Option TokenKind) (text : List Char) :
    List (TokenKind × Option (List Char) × Position) :=
  ((scanLine w i previous? text).filterMap (·.token?)).map fun t =>
    (t.kind, Text.slice? text t.range.start t.range.length, t.position)

/-- The lines have the same tokens, but for their offsets, and the same reports. -/
structure SameLexemes (w i : Nat) (previous? : Option TokenKind) (text text' : List Char) : Prop where
  tokens : shownTokens w i previous? text = shownTokens w i previous? text'
  reports : (scanLine w i previous? text).filterMap (·.report?) =
    (scanLine w i previous? text').filterMap (·.report?)

theorem shownTokens_eq (w i : Nat) (previous? : Option TokenKind) (text : List Char) :
    shownTokens w i previous? text = (lexemesAt w (.lineStart i) previous? text).filterMap fun l =>
      l.token?.map fun t => (t.kind, some l.piece.text, t.position) := by
  have silent : ∀ l : Located, l.piece.isGap →
      (l.token?.map fun t => (t.kind, some l.piece.text, t.position)) = none := by
    intro l gap
    rw [Located.token?_of_isGap gap]
    rfl
  rw [shownTokens, List.map_filterMap, lexemesAt, filterMap_lexemes silent, scanLine_eq]
  refine List.filterMap_congr fun l mem => ?_
  obtain ⟨before, after, cut, starts, -⟩ := mem_locate mem
  have whole := Piece.texts_pieces previous? text
  rw [cut, Piece.texts_append, Piece.texts_cons] at whole
  cases given : l.token? with
  | none => rfl
  | some t =>
    obtain ⟨-, -, range⟩ := Located.token?_eq_some given
    have offset : l.start.offset = Text.byteLength (Piece.texts before) := by rw [starts, Place.after_lineStart]
    rw [Option.map_some, Option.map_some, range, ← whole, offset, Text.slice?_append]

theorem sameLexemes_of_sights
    (same : (lexemesAt w (.lineStart i) previous? text).map (·.sight) =
      (lexemesAt w (.lineStart i) previous? text').map (·.sight)) : SameLexemes w i previous? text text' := by
  constructor
  · rw [shownTokens_eq, shownTokens_eq]
    refine filterMap_eq_of_map_eq (fun l m same => ?_) same
    obtain ⟨piece, place, -⟩ := Located.eq_of_sight same
    simp only [Located.token?, piece, place, Option.map_map]
    rfl
  · have reports : ∀ cs, (scanLine w i previous? cs).filterMap (·.report?) =
        (lexemesAt w (.lineStart i) previous? cs).filterMap (·.report?) := by
      intro cs
      rw [scanLine_eq, lexemesAt, filterMap_lexemes fun l => l.report?_of_isGap]
    rw [reports, reports]
    refine filterMap_eq_of_map_eq (fun l m same => ?_) same
    obtain ⟨piece, place, stop⟩ := Located.eq_of_sight same
    have column : l.start.column = m.start.column := congrArg Position.column place
    simp only [Located.report?, piece, place, stop, column]

/-! ### Comments -/

theorem width_blanked (w : Nat) (cs : List Char) : Text.width w (Snippet.blanked cs) = Text.width w cs := by
  induction cs with
  | nil => rfl
  | cons c cs ih =>
    rw [Snippet.blanked, List.map_cons, Text.width_cons, Text.width_cons, ← Snippet.blanked, ih]
    congr 1
    by_cases tab : c = '\t'
    · rw [if_pos tab, tab]
    · rw [if_neg tab, Text.charWidth, Text.charWidth, if_neg tab, if_neg (by decide)]

theorem isBlank_of_mem_blanked : ∀ c ∈ Snippet.blanked cs, Text.isBlank c := by
  intro c mem
  obtain ⟨d, -, rfl⟩ := List.mem_map.mp mem
  split <;> decide

/-- A piece that is a comment starts one, and one that is no block comment ends the line. -/
theorem Piece.commentStarts_of_cut {p : Piece} (cut : pieces previous? cs = ps ++ p :: qs) (gap : p.isGap)
    (ink : p.sort ≠ .blanks) :
    CommentStarts (p.text ++ texts qs) ∧
      (p.sort = .blockComment → ∃ body, p.text = '/' :: '*' :: body) ∧
      (p.sort ≠ .blockComment → texts qs = []) := by
  have sound := pieces_sound cut
  obtain ⟨sort, text⟩ := p
  generalize texts qs = rest at sound ⊢
  cases sound with
  | gap comment =>
    cases comment with
    | blanks => exact absurd rfl ink
    | lineComment => exact ⟨Or.inl ⟨_, rfl⟩, nofun, fun _ => rfl⟩
    | blockComment => exact ⟨Or.inr ⟨_, rfl⟩, fun _ => ⟨_, rfl⟩, fun other => absurd rfl other⟩
    | openComment => exact ⟨Or.inr ⟨_, rfl⟩, nofun, fun _ => rfl⟩
  | lexeme => exact nomatch gap

/-- The text that the pieces make up. -/
def textOf (ls : List Located) : List Char := Piece.texts (ls.map (·.piece))

section Comment

variable {before after : List Located} {l : Located} (split : scanLine w i previous? text = before ++ l :: after)
  (gap : l.piece.isGap) (ink : l.piece.sort ≠ .blanks)

include split

theorem pieces_of_scanLine : Piece.pieces previous? text =
    before.map (·.piece) ++ l.piece :: after.map (·.piece) := by
  rw [scanLine_eq] at split
  exact (locate_split split).1

theorem text_of_scanLine :
    textOf before ++ (l.piece.text ++ textOf after) = text := by
  have whole := Piece.texts_pieces previous? text
  rwa [pieces_of_scanLine split, Piece.texts_append, Piece.texts_cons] at whole

include gap

/-- Behind the comment the scan goes on with what follows. -/
theorem scan_behind_comment : after = locate w l.stop (Piece.pieces
    ((before.map (·.piece)).foldl Piece.previousAfter previous?) (textOf after)) := by
  obtain ⟨_, _, -, -, tail⟩ := Piece.pieces_eq_cons (Piece.pieces_split (pieces_of_scanLine split))
  rw [scanLine_eq] at split
  obtain ⟨-, -, -, -, behind⟩ := locate_split split
  rw [Piece.previousAfter_of_isGap gap] at tail
  rwa [textOf, tail]

include ink

theorem lexemesAt_up_to_comment (clear : Clear b') :
    lexemesAt w (.lineStart i) previous? (textOf before ++ b') =
      lexemes before ++
        lexemesAt w l.start ((before.map (·.piece)).foldl Piece.previousAfter previous?) b' := by
  have pieces := pieces_of_scanLine split
  have opens := (Piece.commentStarts_of_cut pieces gap ink).1
  rw [← text_of_scanLine split] at pieces
  rw [scanLine_eq] at split
  obtain ⟨-, here, start, -, -⟩ := locate_split split
  rw [textOf, lexemesAt_before_comment pieces opens clear, ← here, ← start]

/-- The line is scanned up to the comment as if it ended there. -/
theorem lexemes_front : lexemes (scanLine w i previous? (textOf before)) = lexemes before := by
  have alone := lexemesAt_up_to_comment split gap ink (Or.inl rfl)
  rwa [List.append_nil, lexemesAt_nil, List.append_nil, lexemesAt, ← scanLine_eq] at alone

end Comment

/-- Up to a comment a line is scanned as if it ended there, and behind it the scan goes on with what follows,
under the kind of the last token. Blanks in the place of a closed block comment change no token but for its offset,
and no report; nor does cutting off any other comment. -/
theorem comments_are_blanks {before after : List Located} {l : Located}
    (split : scanLine w i previous? text = before ++ l :: after) (gap : l.piece.isGap)
    (ink : l.piece.sort ≠ .blanks) :
    text = textOf before ++ (l.piece.text ++ textOf after) ∧
      lexemes (scanLine w i previous? (textOf before)) = lexemes before ∧
      after = locate w l.stop
        (Piece.pieces ((before.map (·.piece)).foldl Piece.previousAfter previous?) (textOf after)) ∧
      (l.piece.sort = .blockComment →
        SameLexemes w i previous? text (textOf before ++ (Snippet.blanked l.piece.text ++ textOf after))) ∧
      (l.piece.sort ≠ .blockComment → textOf after = [] ∧ SameLexemes w i previous? text (textOf before)) := by
  obtain ⟨-, block, last⟩ := Piece.commentStarts_of_cut (pieces_of_scanLine split) gap ink
  rw [← textOf] at last
  have behind := scan_behind_comment split gap
  have front_alone := lexemes_front split gap ink
  have all : lexemesAt w (.lineStart i) previous? text = lexemes before ++ lexemes after := by
    rw [lexemesAt, ← scanLine_eq, split, lexemes_append, lexemes_cons_of_gap gap]
  refine ⟨(text_of_scanLine split).symm, front_alone, behind, fun closed => ?_, fun other => ⟨last other, ?_⟩⟩
  · obtain ⟨body, comment⟩ := block closed
    -- Two blanks stand where the opener stood, so no lexeme before it goes on.
    have clear : Clear (Snippet.blanked l.piece.text ++ textOf after) := by
      rw [comment]
      exact Or.inr ⟨_, rfl⟩
    have stop := (locate_split ((scanLine_eq w i previous? text).symm.trans split)).2.2.2.1
    have same_place : l.stop.position = (l.start.after w (Snippet.blanked l.piece.text)).position := by
      rw [stop]
      simp only [Place.position, Place.after, width_blanked]
    refine sameLexemes_of_sights ?_
    rw [all, lexemesAt_up_to_comment split gap ink clear, lexemesAt_blanks isBlank_of_mem_blanked, List.map_append,
      List.map_append, ← map_sight_lexemesAt same_place, lexemesAt, ← behind]
  · have nothing_after : lexemes after = [] := by
      rw [behind, last other, ← lexemesAt, lexemesAt_nil]
    refine sameLexemes_of_sights ?_
    rw [all, nothing_after, List.append_nil, lexemesAt, ← scanLine_eq, front_alone]

/-- Around the comments of this line, the tokens and the report stay what they are. -/
theorem comments_are_blanks_around_tokens :
    SameLexemes 4 0 none "a/*\tx*/5__0--c".toList "a  \t   5__0--c".toList ∧
    SameLexemes 4 0 none "a/*\tx*/5__0--c".toList "a/*\tx*/5__0".toList := by
  have scanned : scanLine 4 0 none "a/*\tx*/5__0--c".toList =
      [⟨⟨.lexeme (.token .identifier), "a".toList⟩, ⟨0, 0, 1⟩, ⟨0, 1, 2⟩⟩,
        ⟨⟨.blockComment, "/*\tx*/".toList⟩, ⟨0, 1, 2⟩, ⟨0, 7, 11⟩⟩,
        ⟨⟨.lexeme (.dropped .malformedNumber), "5__0".toList⟩, ⟨0, 7, 11⟩, ⟨0, 11, 15⟩⟩,
        ⟨⟨.lineComment, "--c".toList⟩, ⟨0, 11, 15⟩, ⟨0, 14, 18⟩⟩] := by
    decide +kernel
  obtain ⟨-, -, -, blanks, -⟩ := comments_are_blanks (show _ = [_] ++ _ :: _ from scanned) rfl nofun
  obtain ⟨-, -, -, -, cut⟩ := comments_are_blanks (show _ = [_, _, _] ++ _ :: _ from scanned) rfl nofun
  exact ⟨blanks rfl, (cut nofun).2⟩

/-! ### Comments that stay open -/

theorem Piece.allPlain_of_text (cut : pieces previous? text = ps) (no_escape : '\\' ∉ text)
    (no_apostrophe : '\'' ∉ text) (no_closer : ¬ ['*', '/', '*'] <:+: text) : AllPlain ps := by
  intro front p behind split
  have whole := texts_pieces previous? text
  rw [cut, split, texts_append, texts_cons] at whole
  have inside : ∀ c ∈ p.text, c ∈ text := by
    intro c mem
    rw [← whole]
    exact List.mem_append_right _ (List.mem_append_left _ mem)
  refine ⟨fun first => ?_, fun last => ?_, fun closer star => ?_⟩
  · exact absurd (inside _ (List.mem_of_mem_head? first)) no_escape
  · exact absurd (inside _ (List.mem_of_getLast? last)) no_apostrophe
  · obtain ⟨rest, starts⟩ := List.head?_eq_some_iff.mp star
    rw [closer, starts] at whole
    exact no_closer ⟨texts front, rest, by simpa using whole⟩

/-- On a line without backslashes, apostrophes and a closer that a star follows, the search for openers finds the
comment that the scan leaves open: the code before it gives the tokens and reports of the line. -/
theorem code_before_opener (no_escape : '\\' ∉ text) (no_apostrophe : '\'' ∉ text)
    (no_closer : ¬ ['*', '/', '*'] <:+: text) :
    (∀ front, Source.unclosedOpener? text = some front → ∃ before comment,
      scanLine w i previous? text = before ++ [comment] ∧ text = front ++ comment.piece.text ∧
      comment.piece.sort = .openComment ∧ comment.start.offset = Text.byteLength front ∧
      (scanLine w i previous? text).filterMap (·.token?) =
        (scanLine w i previous? front).filterMap (·.token?) ∧
      (scanLine w i previous? text).filterMap (·.report?) =
        (scanLine w i previous? front).filterMap (·.report?)) ∧
    (Source.unclosedOpener? text = none →
      ∀ l ∈ scanLine w i previous? text, l.piece.sort ≠ .openComment) := by
  have plain : Piece.AllPlain (Piece.pieces previous? text) :=
    Piece.allPlain_of_text rfl no_escape no_apostrophe no_closer
  have found : ∀ {before l after}, scanLine w i previous? text = before ++ l :: after →
      l.piece.sort = .openComment → Source.unclosedOpener? text = some (textOf before) := by
    intro before l after split opens
    have pieces := pieces_of_scanLine split
    exact Piece.unclosedOpener?_of_openComment pieces (pieces ▸ plain) opens
  constructor
  · intro front search
    have opened : ∃ l ∈ scanLine w i previous? text, l.piece.sort = .openComment := by
      by_contra none_open
      refine absurd (search.symm.trans (Piece.unclosedOpener?_of_closed rfl plain ?_)) (Option.some_ne_none _)
      intro p mem opens
      rw [← map_piece_locate w (.lineStart i) (Piece.pieces previous? text), ← scanLine_eq] at mem
      obtain ⟨l, scanned, rfl⟩ := List.mem_map.mp mem
      exact none_open ⟨l, scanned, opens⟩
    obtain ⟨comment, scanned, opens⟩ := opened
    obtain ⟨before, after, split⟩ := List.append_of_mem scanned
    obtain rfl : textOf before = front := Option.some.inj ((found split opens).symm.trans search)
    obtain rfl : after = [] := List.map_eq_nil_iff.mp (Piece.openComment_last (pieces_of_scanLine split) opens).2
    have gap : comment.piece.isGap := by simp [Piece.isGap, opens]
    have ink : comment.piece.sort ≠ .blanks := by simp [opens]
    have start := (locate_split ((scanLine_eq w i previous? text).symm.trans split)).2.2.1
    have given_alike : ∀ {β} {give : Located → Option β}, (∀ l, l.piece.isGap → give l = none) →
        (scanLine w i previous? text).filterMap give =
          (scanLine w i previous? (textOf before)).filterMap give := by
      intro β give silent
      rw [← filterMap_lexemes silent, ← filterMap_lexemes silent (scanLine w i previous? (textOf before)),
        lexemes_front split gap ink, split, lexemes_append, lexemes_cons_of_gap gap]
      exact congrArg _ (List.append_nil _)
    refine ⟨before, comment, split, ?_, opens, ?_, given_alike fun l => l.token?_of_isGap,
      given_alike fun l => l.report?_of_isGap⟩
    · rw [← text_of_scanLine split]
      exact congrArg _ (List.append_nil _)
    · rw [start, Place.after_lineStart]
      rfl
  · intro search l scanned opens
    obtain ⟨before, after, split⟩ := List.append_of_mem scanned
    exact nomatch search.symm.trans (found split opens)

/-- The opener in the string is none, and the quote in the comment starts no string. -/
theorem code_before_opener_in_string :
    ∃ before comment, scanLine 1 0 none "x := \"/*\" /* \"".toList = before ++ [comment] ∧
      comment.piece.sort = .openComment ∧ comment.start.offset = 10 ∧
      (scanLine 1 0 none "x := \"/*\" /* \"".toList).filterMap (·.token?) =
        (scanLine 1 0 none "x := \"/*\" ".toList).filterMap (·.token?) := by
  have opener : Source.unclosedOpener? "x := \"/*\" /* \"".toList = some "x := \"/*\" ".toList := by decide +kernel
  obtain ⟨before, comment, split, -, opens, offset, tokens, -⟩ :=
    (code_before_opener (by decide) (by decide) (by decide)).1 _ opener
  exact ⟨before, comment, split, opens, offset, tokens⟩

end VhdlFrontEnd
