import VhdlFrontEnd.Proofs.Openers
import VhdlFrontEnd.Proofs.Pieces
import VhdlFrontEnd.Proofs.Roles
import VhdlFrontEnd.Proofs.Run
import VhdlFrontEnd.Proofs.UpperLexeme

/-!
# Sources in upper case

The lines of a text in upper case have the roles of the text's lines, with the same reports
(`Source.ofText_upper`), and are cut into the same pieces at the same places (`scan_upper`).
-/

namespace VhdlFrontEnd

open Text

/-! ### Marks -/

namespace Source

theorem pair_upper_iff {a b c : Char} {cs : List Char} (plainA : a.isAlpha = false) (plainB : b.isAlpha = false) :
    c.toUpper = a ∧ (upper cs).head? = some b ↔ c = a ∧ cs.head? = some b := by
  rw [toUpper_eq_iff plainA, head?_upper, map_toUpper_eq_some_iff plainB]

theorem splitMark?_upper {a b : Char} (plainA : a.isAlpha = false) (plainB : b.isAlpha = false)
    (cs : List Char) :
    splitMark? a b (upper cs) = (splitMark? a b cs).map fun parts => (upper parts.1, upper parts.2) := by
  induction cs with
  | nil => rfl
  | cons c cs ih =>
    rw [upper_cons, splitMark?, splitMark?, ih]
    simp only [pair_upper_iff plainA plainB]
    split
    · exact congrArg (fun rest => some ([], rest)) List.map_tail.symm
    · rw [Option.map_map, Option.map_map]
      rfl

theorem splitCloser?_upper (cs : List Char) :
    splitCloser? (upper cs) = (splitCloser? cs).map fun parts => (upper parts.1, upper parts.2) :=
  splitMark?_upper rfl rfl cs

theorem splitOpener?_upper (cs : List Char) :
    splitOpener? (upper cs) = (splitOpener? cs).map fun parts => (upper parts.1, upper parts.2) :=
  splitMark?_upper rfl rfl cs

theorem Alone.upper {c : Char} {rest : List Char} (alone : Alone c rest) :
    Alone c.toUpper (Text.upper rest) := by
  refine ⟨?_, ?_, ?_, ?_⟩
  · rw [ne_eq, toUpper_eq_iff rfl]
    exact alone.quote
  · rw [pair_upper_iff rfl rfl]
    exact alone.dashes
  · rw [pair_upper_iff rfl rfl]
    exact alone.opener
  · rintro ⟨x, after, literal, ascii⟩
    rw [← upper_cons, upper_eq_cons_iff rfl] at literal
    obtain ⟨tail, rest_eq, literal⟩ := literal
    cases tail with
    | nil => exact nomatch literal
    | cons y tail =>
      rw [upper_cons, List.cons.injEq, upper_eq_cons_iff rfl] at literal
      obtain ⟨rfl, after, rfl, -⟩ := literal
      rw [isAscii_toUpper] at ascii
      exact alone.literal ⟨y, after, rest_eq, ascii⟩

theorem unclosedOpener?_upper (cs : List Char) :
    unclosedOpener? (upper cs) = (unclosedOpener? cs).map upper := by
  fun_induction unclosedOpener? cs with
  | case1 => simp [unclosedOpener?]
  | case2 rest runs_off =>
    have unquoted : '"' ∉ upper rest := by
      rw [mem_upper_iff rfl]
      intro mem
      exact of_decide_eq_true (List.dropWhile_eq_nil_iff.mp runs_off _ mem) rfl
    rw [upper_cons_of_plain rfl, unclosedOpener?_openString unquoted, Option.map_none]
  | case3 rest q after closes ih =>
    have unquoted : '"' ∉ upper (rest.takeWhile (· ≠ '"')) := by
      rw [mem_upper_iff rfl]
      exact not_mem_takeWhile_ne '"' rest
    have whole := List.takeWhile_append_dropWhile (p := fun d : Char => decide (d ≠ '"')) (l := rest)
    obtain rfl : q = '"' := eq_of_dropWhile_ne closes
    rw [closes] at whole
    have upper_whole := congrArg upper whole
    rw [upper_append, upper_cons_of_plain rfl] at upper_whole
    rw [upper_cons_of_plain rfl, ← upper_whole, unclosedOpener?_string unquoted, ih]
    simp [Function.comp_def, upper_cons_of_plain (d := '"') rfl]
  | case4 c rest _ dashes =>
    obtain ⟨rfl, dash⟩ := dashes
    obtain ⟨body, rfl⟩ := List.head?_eq_some_iff.mp dash
    exact unclosedOpener?_lineComment (upper body)
  | case5 c rest _ _ mark none_closes =>
    obtain ⟨rfl, star⟩ := mark
    obtain ⟨body, rfl⟩ := List.head?_eq_some_iff.mp star
    have none_upper : splitCloser? (upper body) = none := by
      rw [splitCloser?_upper]
      exact Option.map_eq_none_iff.mpr none_closes
    exact unclosedOpener?_openComment (splitMark?_eq_none_iff.mp none_upper)
  | case6 c rest _ _ mark inside after closes ih =>
    obtain ⟨rfl, star⟩ := mark
    obtain ⟨body, rfl⟩ := List.head?_eq_some_iff.mp star
    have upper_closes : splitCloser? (upper body) = some (upper inside, upper after) := by
      rw [splitCloser?_upper]
      exact congrArg (Option.map _) closes
    obtain ⟨cut, first⟩ := splitMark?_eq_some_iff.mp upper_closes
    rw [upper_cons_of_plain rfl, upper_cons_of_plain rfl, cut, unclosedOpener?_comment first, ih]
    simp [Function.comp_def, upper_cons_of_plain (d := '/') rfl, upper_cons_of_plain (d := '*') rfl]
  | case7 c _ x after literal _ _ ih =>
    obtain ⟨rfl, ascii⟩ := literal
    have upper_ascii : isAscii x.toUpper := by rwa [isAscii_toUpper]
    have step := unclosedOpener?_literal upper_ascii (upper after)
    rw [ih] at step
    simpa [Function.comp_def, upper_cons_of_plain (d := '\'') rfl] using step
  | case8 c quote x after other dashes opener ih =>
    rw [upper_cons, unclosedOpener?_alone (alone_of_not_literal quote dashes opener other).upper, ih]
    simp [Function.comp_def]
  | case9 c quote rest short dashes opener ih =>
    rw [upper_cons, unclosedOpener?_alone (alone_of_short quote dashes opener short).upper, ih]
    simp [Function.comp_def]

end Source

/-! ### Lines -/

def Line.upper (line : Line) : Line := { line with text := Text.upper line.text }

namespace Source

def LineReading.upper (r : LineReading) : LineReading := { r with line := r.line.upper }

variable (place : LinePlace)

theorem after_upper (before : List Char) : place.after (upper before) = place.after before := by
  rw [LinePlace.after, LinePlace.after, columnAfter_upper]

theorem trimEnd_upper (cs : List Char) : trimEnd (upper cs) = upper (trimEnd cs) := by
  have reversed : (upper cs).reverse = upper cs.reverse := List.map_reverse.symm
  rw [trimEnd, trimEnd, reversed, dropWhile_upper isBlank_toUpper]
  exact List.map_reverse.symm

theorem checkNested_upper (region : List Char) : checkNested place (upper region) = checkNested place region := by
  rw [checkNested, checkNested, splitOpener?_upper]
  cases splitOpener? region with
  | none => rfl
  | some parts =>
    dsimp only [Option.map_some]
    rw [nestedWarning, nestedWarning, after_upper]

theorem checkTrailing_upper (before region : List Char) :
    checkTrailing place (upper before) (upper region) = checkTrailing place before region := by
  have empty (cs : List Char) : (upper cs).isEmpty = cs.isEmpty := List.isEmpty_map
  rw [checkTrailing, checkTrailing, takeWhile_upper isBlank_toUpper, dropWhile_upper isBlank_toUpper,
    trimEnd_upper, empty, isPrefixOf_upper rfl, isPrefixOf_upper rfl, ← upper_append, trailingWarning,
    trailingWarning, after_upper, length_upper]

theorem afterCloser_upper (before rest : List Char) :
    afterCloser place (upper before) (upper rest) = afterCloser place before rest := by
  rw [afterCloser, afterCloser, unclosedOpener?_upper]
  cases unclosedOpener? rest with
  | none =>
    dsimp only [Option.map_none]
    rw [checkTrailing_upper]
  | some front =>
    dsimp only [Option.map_some]
    rw [checkTrailing_upper, ← upper_append, after_upper]

theorem readFresh_upper (text : List Char) : readFresh place (upper text) = (readFresh place text).upper := by
  have blanks := takeWhile_upper isBlank_toUpper text
  have ink := dropWhile_upper isBlank_toUpper text
  by_cases opener : ['/', '*'] <+: text.dropWhile isBlank
  · obtain ⟨body, found⟩ := exists_of_pair_prefix opener
    rw [found, upper_cons_of_plain rfl, upper_cons_of_plain rfl] at ink
    cases closes : splitCloser? body with
    | none =>
      have unclosed : splitCloser? (upper body) = none := by rw [splitCloser?_upper, closes, Option.map_none]
      rw [readFresh_unclosed place ink unclosed, readFresh_unclosed place found closes, blanks, after_upper]
      rfl
    | some parts =>
      have upper_closes : splitCloser? (upper body) = some (upper parts.1, upper parts.2) := by
        rw [splitCloser?_upper, closes, Option.map_some]
      have before := afterCloser_upper place
        (text.takeWhile isBlank ++ '/' :: '*' :: parts.1 ++ ['*', '/']) parts.2
      simp only [upper_append, upper_cons_of_plain (d := '/') rfl, upper_cons_of_plain (d := '*') rfl,
        upper_nil] at before
      rw [readFresh_closed place ink upper_closes, readFresh_closed place found closes, blanks, before]
      rfl
  · have none_starts : ¬ ['/', '*'] <+: (upper text).dropWhile isBlank := by
      rwa [ink, prefix_upper_iff rfl]
    have dashes : ['-', '-'] <+: upper (text.dropWhile isBlank) ↔ ['-', '-'] <+: text.dropWhile isBlank :=
      prefix_upper_iff rfl
    rw [readFresh_of_no_comment place none_starts, readFresh_of_no_comment place opener, ink,
      unclosedOpener?_upper, Option.map_map, Function.comp_def]
    simp only [upper_eq_nil_iff, dashes, after_upper]
    split
    · rfl
    · split <;> rfl

theorem readInside_upper (start : Position) (text : List Char) :
    readInside place start (upper text) = (readInside place start text).upper := by
  rw [readInside, readInside, splitCloser?_upper]
  cases splitCloser? text with
  | none =>
    dsimp only [Option.map_none]
    rw [checkNested_upper]
    rfl
  | some parts =>
    have before := afterCloser_upper place (parts.1 ++ ['*', '/']) parts.2
    rw [upper_append] at before
    dsimp only [Option.map_some]
    rw [checkNested_upper]
    exact congrArg (fun found : Option Position × List Diagnostic =>
      (⟨⟨.blockCommentEnd, upper text⟩, found.1, checkNested place parts.1 ++ found.2⟩ : LineReading)) before

theorem readLine_upper (open? : Option Position) (text : List Char) :
    readLine place open? (upper text) = (readLine place open? text).upper := by
  cases open? with
  | none => exact readFresh_upper place text
  | some start => exact readInside_upper place start text

theorem readLines_upper (w number : Nat) (open? : Option Position) (texts : List (List Char)) :
    readLines w number open? (texts.map upper) = (readLines w number open? texts).map (·.upper) := by
  induction texts generalizing number open? with
  | nil => rfl
  | cons text texts ih =>
    rw [List.map_cons, readLines, readLines, List.map_cons, readLine_upper]
    exact congrArg (_ :: ·) (ih (number + 1) _)

end Source

/-! ### Sources -/

def Source.upper (s : Source) : Source := { s with lines := .ofList (s.lines.toList.map (·.upper)) }

def Loaded.upper (loaded : Loaded) : Loaded := { loaded with source := loaded.source.upper }

namespace Source

theorem ofLines_upper (w : Nat) (texts : List (List Char)) :
    ofLines w (texts.map Text.upper) = (ofLines w texts).upper := by
  have same_open (rs : List LineReading) : openAfter none (rs.map (·.upper)) = openAfter none rs := by
    rw [openAfter, openAfter, List.getLast?_map]
    cases rs.getLast? <;> rfl
  rw [ofLines, ofLines, readLines_upper, same_open, List.map_map, List.flatMap_map, Loaded.upper, Source.upper,
    Arena.toList_ofList, List.map_map]
  rfl

theorem overlong?_upper (limit : Nat) (texts : List (List Char)) :
    overlong? limit (texts.map Text.upper) = overlong? limit texts := by
  rw [overlong?, overlong?, List.zipIdx_map, List.findSome?_map]
  refine congrArg (fun find => (texts.zipIdx 1).findSome? find) (funext fun line => ?_)
  obtain ⟨text, number⟩ := line
  rw [Function.comp_apply, Prod.map_apply, id_eq]
  dsimp only
  rw [length_upper]

/-- A text in upper case loads as the text does, with its lines in upper case and the same reports. -/
theorem ofText_upper (settings : SourceSettings) (code : List Char) :
    ofText settings (Text.upper code) = (ofText settings code).map (·.upper) := by
  rw [ofText, ofText, physicalLines_upper, overlong?_upper, ofLines_upper]
  cases overlong? settings.maxLineLength (physicalLines code) <;> rfl

end Source

/-! ### Pieces -/

def PieceSort.upper : PieceSort → PieceSort
  | lexeme l => .lexeme l.upper
  | sort => sort

namespace Piece

def upper (p : Piece) : Piece := ⟨p.sort.upper, Text.upper p.text⟩

theorem kind?_upper (p : Piece) : p.upper.kind? = p.kind? := by
  obtain ⟨sort, text⟩ := p
  cases sort with
  | lexeme l => cases l <;> rfl
  | _ => rfl

theorem fault?_upper (p : Piece) : p.upper.fault? = p.fault?.map (·.upper) := by
  obtain ⟨sort, text⟩ := p
  cases sort with
  | lexeme l => cases l <;> rfl
  | _ => rfl

theorem previousAfter_upper (previous? : Option TokenKind) (p : Piece) :
    previousAfter previous? p.upper = previousAfter previous? p := by
  rw [previousAfter, previousAfter, kind?_upper]

theorem foldl_previousAfter_upper (previous? : Option TokenKind) (ps : List Piece) :
    (ps.map upper).foldl previousAfter previous? = ps.foldl previousAfter previous? := by
  rw [List.foldl_map]
  simp only [previousAfter_upper]

theorem comment?_upper (cs : List Char) :
    comment? (Text.upper cs) = (comment? cs).map fun found => (found.1.upper, Text.upper found.2) := by
  unfold comment?
  split
  · next dashes =>
    obtain ⟨_, rfl, dash⟩ := (upper_eq_cons_iff rfl).mp dashes
    obtain ⟨rest, rfl, rfl⟩ := (upper_eq_cons_iff rfl).mp dash
    rfl
  · next opener =>
    obtain ⟨_, rfl, star⟩ := (upper_eq_cons_iff rfl).mp opener
    obtain ⟨body, rfl, rfl⟩ := (upper_eq_cons_iff rfl).mp star
    rw [Source.splitCloser?_upper]
    cases closes : Source.splitCloser? body with
    | none => simp [closes, upper, PieceSort.upper]
    | some parts => simp [closes, upper, PieceSort.upper]
  · next no_dashes no_opener =>
    split
    · exact absurd rfl (no_dashes _)
    · exact absurd rfl (no_opener _)
    · rfl

theorem first_upper (previous? : Option TokenKind) (c : Char) (rest : List Char) :
    first previous? c.toUpper (Text.upper rest) =
      ((first previous? c rest).1.upper, Text.upper (first previous? c rest).2) := by
  have comment := comment?_upper (c :: rest)
  rw [upper_cons] at comment
  rw [first, first, isBlank_toUpper, takeWhile_upper isBlank_toUpper, dropWhile_upper isBlank_toUpper,
    comment, Lexeme.read_upper]
  split
  · rfl
  · cases comment? (c :: rest) <;> rfl

/-- A text in upper case is cut into the pieces of the text, in upper case. -/
theorem pieces_upper (previous? : Option TokenKind) (cs : List Char) :
    pieces previous? (Text.upper cs) = (pieces previous? cs).map upper := by
  fun_induction pieces previous? cs with
  | case1 => exact pieces_nil
  | case2 previous? c rest found ih =>
    rw [upper_cons, pieces_cons, first_upper, previousAfter_upper, List.map_cons, ih]

end Piece

/-! ### Tokens -/

def Located.upper (l : Located) : Located := { l with piece := l.piece.upper }

theorem locate_upper (w : Nat) (start : Place) (ps : List Piece) :
    locate w start (ps.map Piece.upper) = (locate w start ps).map Located.upper := by
  have same_after (start : Place) (p : Piece) : start.after w p.upper.text = start.after w p.text := by
    rw [Place.after, Place.after, Piece.upper, byteLength_upper, width_upper]
  induction ps generalizing start with
  | nil => rfl
  | cons p ps ih =>
    rw [List.map_cons, locate, locate, same_after, ih]
    rfl

theorem scanLines_upper (w : Nat) (previous? : Option TokenKind) (lines : List (Nat × Line)) :
    scanLines w previous? (lines.map fun line => (line.1, line.2.upper)) =
      (scanLines w previous? lines).map Located.upper := by
  induction lines generalizing previous? with
  | nil => rfl
  | cons line lines ih =>
    obtain ⟨i, line⟩ := line
    rw [List.map_cons, scanLines, scanLines, Line.upper, Piece.pieces_upper, Piece.foldl_previousAfter_upper,
      locate_upper, ih, List.map_append]

theorem Located.token?_upper (l : Located) : l.upper.token? = l.token? := by
  rw [token?, token?, upper, Piece.kind?_upper, Piece.upper, byteLength_upper]

namespace Source

variable (s : Source)

theorem lineCount_upper : s.upper.lineCount = s.lineCount := by
  rw [lineCount, lineCount, Arena.size_eq, Arena.size_eq, Source.upper, Arena.toList_ofList, List.length_map]

theorem get?_upper (i : Nat) : s.upper.lines.get? i = (s.lines.get? i).map (·.upper) := by
  rw [Arena.get?_eq, Arena.get?_eq, Source.upper, Arena.toList_ofList, List.getElem?_map]

theorem codeLines_upper : s.upper.codeLines = s.codeLines.map fun line => (line.1, line.2.upper) := by
  rw [codeLines, codeLines, Arena.enumerated, Arena.enumerated, Source.upper, Arena.toList_ofList, List.zipIdx_map,
    List.map_map, List.filter_map, List.filter_map, List.map_map]
  rfl

theorem scan_upper : s.upper.scan = s.scan.map (·.upper) := by
  rw [scan, scan, codeLines_upper, scanLines_upper]
  rfl

theorem eofToken_upper : s.upper.eofToken = s.eofToken := by
  have last : s.upper.lines.lastIndex? = s.lines.lastIndex? := by
    simp [Arena.lastIndex?, Arena.isEmpty, Arena.size, Arena.ofList, Arena.toList, Source.upper]
  rw [eofToken, eofToken, last, get?_upper]
  cases s.lines.get? (s.lines.lastIndex?.getD 0) with
  | none => rfl
  | some line =>
    dsimp only [Option.map_some, Option.getD_some, Line.upper]
    rw [columnAfter_upper, byteLength_upper]
    rfl

theorem allTokens_upper : s.upper.allTokens = s.allTokens := by
  rw [allTokens, allTokens, scan_upper, eofToken_upper, List.filterMap_map]
  simp only [Function.comp_def, Located.token?_upper]

theorem spelling_upper (t : Token) : s.upper.spelling t = Text.upper (s.spelling t) := by
  rw [spelling, spelling, slice, slice, get?_upper]
  cases s.lines.get? t.range.line with
  | none => rfl
  | some line =>
    rw [Option.map_some, Option.bind_some, Option.bind_some, Line.upper, slice?_upper]
    cases slice? line.text t.range.start t.range.length <;> rfl

end Source

end VhdlFrontEnd
