import VhdlFrontEnd.Proofs.Commented
import VhdlFrontEnd.Proofs.SlicedLines

/-!
# Runs by byte offsets

A run of the front end can be made on bytes: its lines are read by slices, and its code lines are scanned with a cursor
that keeps an offset. There is no result where a slice is not there, or where a loop does not end. `slices_in_range`
shows that this never happens, and that the run is the same.
-/

namespace VhdlFrontEnd

open Text

/-! ### Looking ahead and passing over comments -/

namespace Text.ByteCursor

/-- The bytes up to an index, with the one there. There are none if the index is behind the last byte. -/
def bytesThrough? (bytes : List UInt8) (index : Nat) : Option (List UInt8) :=
  if index < bytes.length then some (bytes.take (index + 1)) else none

/-- The character `n` places ahead, or NUL behind the end. -/
def peekIn? (c : ByteCursor) (n : Nat) : Option Char :=
  match (bytes c.remaining)[n]? with
  | some b => do
    if (← bytesThrough? (bytes c.remaining) n).all (· < 0x80) then return Char.ofNat b.toNat
    else return c.remaining[n]?.getD '\x00'
  | none => return c.remaining[n]?.getD '\x00'

/-- Past a comment that starts at the cursor. -/
def skipComment? (c : ByteCursor) : Option ByteCursor := do
  let inside := c.advanceBy 2
  match Source.closerAt? inside.remaining with
  | some offset =>
    let body ← upTo? inside.remaining offset
    return inside.advanceBy (body.length + 2)
  | none => inside.toEnd?

/-- Past a blank or a comment, if one starts at the cursor. -/
def skipGap? (c : ByteCursor) : Option (ByteCursor ⊕ ByteCursor) := do
  if c.atEnd then return .inl c
  else
    let first ← c.peekIn? 0
    if isBlank first then return .inr c.advance
    else if first = '-' then
      if (← c.peekIn? 1) = '-' then return .inr (← c.toEnd?) else return .inl c
    else if first = '/' then
      if (← c.peekIn? 1) = '*' then return .inr (← c.skipComment?) else return .inl c
    else return .inl c

/-- Past blanks and comments. -/
noncomputable def skipGaps? : ByteCursor → Option ByteCursor := loop? skipGap?

theorem skipGaps?_of_atEnd {c : ByteCursor} (at_end : c.atEnd) : c.skipGaps? = some c := by
  rw [skipGaps?, loop?_eq, skipGap?, if_pos at_end]
  rfl

/-- The index of the fast path is that of a byte, so its slice is there. -/
theorem peekIn?_eq (c : ByteCursor) (n : Nat) : c.peekIn? n = some (c.peek n) := by
  unfold peekIn? peek
  dsimp only
  cases here : (bytes c.remaining)[n]? with
  | none => rfl
  | some b =>
    dsimp only
    rw [bytesThrough?, if_pos (List.getElem?_eq_some_iff.mp here).1, Option.bind_eq_bind, Option.bind_some]
    split <;> rfl

end Text.ByteCursor

namespace Text.Cursor

variable {c : Cursor} {x : Char} {xs front after : List Char}

/-- Past a comment that starts at the cursor. -/
def skipComment (c : Cursor) : Cursor :=
  match Source.splitCloser? (c.advanceBy 2).rest with
  | some (inside, _) => (c.advanceBy 2).advanceBy (inside.length + 2)
  | none => (c.advanceBy 2).toEnd

/-- Wherever the cursor stands, the slice up to the closer is there. -/
theorem skipComment?_inBytes (c : Cursor) : c.inBytes.skipComment? = some c.skipComment.inBytes := by
  rw [ByteCursor.skipComment?, skipComment, advanceBy_inBytes, remaining_inBytes, Source.closerAt?]
  dsimp only
  cases closes : Source.splitCloser? (c.advanceBy 2).rest with
  | none => exact toEnd?_inBytes _
  | some parts =>
    obtain ⟨inside, rest⟩ := parts
    rw [Option.map_some]
    dsimp only
    rw [Source.splitMark?_eq_some closes, upTo?_append, Option.bind_eq_bind, Option.bind_some, advanceBy_inBytes]
    rfl

theorem atEnd_of_rest (rest : c.rest = x :: xs) : c.atEnd = false := by
  rw [atEnd, rest]
  rfl

theorem peekIn?_inBytes (c : Cursor) (n : Nat) : c.inBytes.peekIn? n = some ((c.peek? n).getD '\x00') := by
  rw [ByteCursor.peekIn?_eq, peek_inBytes]

theorem skipGaps?_of_rest (rest : c.rest = x :: xs) : c.inBytes.skipGaps? =
    if isBlank x then c.advance.inBytes.skipGaps?
    else if x = '-' then
      if xs.head?.getD '\x00' = '-' then c.toEnd.inBytes.skipGaps? else some c.inBytes
    else if x = '/' then
      if xs.head?.getD '\x00' = '*' then c.skipComment.inBytes.skipGaps? else some c.inBytes
    else some c.inBytes := by
  have first : (c.peek? 0).getD '\x00' = x := by rw [peek?, rest]; rfl
  have second : (c.peek? 1).getD '\x00' = xs.head?.getD '\x00' := by
    rw [peek?, rest, List.getElem?_cons_succ, List.head?_eq_getElem?]
  rw [ByteCursor.skipGaps?, loop?_eq, ByteCursor.skipGap?, atEnd_inBytes, atEnd_of_rest rest, peekIn?_inBytes,
    peekIn?_inBytes, first, second, advance_inBytes, toEnd?_inBytes, skipComment?_inBytes,
    if_neg Bool.false_ne_true]
  simp only [Option.bind_eq_bind, Option.bind_some]
  split_ifs
  all_goals rfl

/-- A cursor goes on behind a comment, and passes over what follows it. -/
theorem skipGaps?_comment {p : Piece} (comment : Piece.comment? c.rest = some (p, after)) :
    c.inBytes.skipGaps? = (c.advanceBy p.text.length).inBytes.skipGaps? := by
  unfold Piece.comment? at comment
  split at comment
  · next body rest =>
    cases comment
    rw [skipGaps?_of_rest rest, toEnd, rest]
    rfl
  · next body rest =>
    have behind : (c.advanceBy 2).rest = body := by
      rw [advanceBy_eq, rest]
      rfl
    have star : ('*' :: body).head?.getD '\x00' = '*' := rfl
    rw [skipGaps?_of_rest rest, if_neg (by decide), if_neg (by decide), if_pos rfl, if_pos star, skipComment, behind]
    cases closes : Source.splitCloser? body with
    | some parts =>
      obtain ⟨inside, rest⟩ := parts
      rw [closes] at comment
      cases comment
      dsimp only
      have long : ('/' :: '*' :: inside ++ ['*', '/']).length = 2 + (inside.length + 2) := by
        simp [Nat.add_comm 2]
      rw [advanceBy_advanceBy, long]
    | none =>
      rw [closes] at comment
      cases comment
      rw [toEnd, behind]
      dsimp only
      rw [advanceBy_advanceBy, Nat.add_comm]
      rfl
  · cases comment

/-- A cursor stays where no gap starts. -/
theorem skipGaps?_ink (rest : c.rest = x :: xs) (ink : ¬ isBlank x) (none_starts : Piece.comment? (x :: xs) = none) :
    c.inBytes.skipGaps? = some c.inBytes := by
  obtain ⟨no_dashes, no_opener⟩ := Piece.comment?_eq_none_iff.mp none_starts
  have look {d : Char} (other : d ≠ '\x00') (next : xs.head?.getD '\x00' = d) : xs.head? = some d := by
    cases xs with
    | nil => exact absurd next.symm other
    | cons y ys => exact congrArg some next
  rw [skipGaps?_of_rest rest, if_neg ink]
  split
  · next dash =>
    exact if_neg fun next => no_dashes (Source.pair_prefix_cons.mpr ⟨dash, look (by decide) next⟩)
  · split
    · next slash =>
      exact if_neg fun next => no_opener (Source.pair_prefix_cons.mpr ⟨slash, look (by decide) next⟩)
    · rfl

theorem skipGaps?_blanks {blanks : List Char} (all : ∀ d ∈ blanks, isBlank d) (ahead : c.rest = blanks ++ after) :
    c.inBytes.skipGaps? = (c.advanceBy blanks.length).inBytes.skipGaps? := by
  induction blanks generalizing c with
  | nil => rfl
  | cons d blanks ih =>
    obtain ⟨blank, all⟩ := List.forall_mem_cons.mp all
    have behind : c.advance.rest = blanks ++ after := by simp [advance, ahead]
    rw [skipGaps?_of_rest ahead, if_pos blank, ih all behind]
    rfl

variable {previous? : Option TokenKind} {p : Piece}

/-- A gap is passed over. -/
theorem skipGaps?_gap (ahead : c.rest = x :: xs) (cut : Piece.first previous? x xs = (p, after)) (gap : p.isGap) :
    c.inBytes.skipGaps? = (c.advanceBy p.text.length).inBytes.skipGaps? := by
  unfold Piece.first at cut
  split at cut
  · next blank =>
    cases cut
    have whole : c.rest = x :: xs.takeWhile isBlank ++ xs.dropWhile isBlank := by
      rw [ahead, List.cons_append, List.takeWhile_append_dropWhile]
    exact skipGaps?_blanks (List.forall_mem_cons.mpr ⟨blank, List.all_eq_true.mp List.all_takeWhile⟩) whole
  · split at cut
    · next found =>
      obtain rfl := cut
      exact skipGaps?_comment (ahead ▸ found)
    · cases cut
      cases gap

/-- In front of a lexeme the cursor stays. -/
theorem skipGaps?_lexeme (ahead : c.rest = x :: xs) (cut : Piece.first previous? x xs = (p, after))
    (lexeme : p.isGap = false) : c.inBytes.skipGaps? = some c.inBytes ∧
      p = ⟨.lexeme (Lexeme.read previous? x xs).lexeme, (Lexeme.read previous? x xs).text⟩ := by
  have none_starts := (Piece.first_of_lexeme (congrArg Prod.fst cut) (Bool.eq_false_iff.mp lexeme)).1
  have ink : ¬ isBlank x := by
    intro blank
    rw [Piece.first, if_pos blank] at cut
    cases cut
    cases lexeme
  rw [Piece.first, if_neg ink, none_starts] at cut
  cases cut
  exact ⟨skipGaps?_ink ahead ink none_starts, rfl⟩

end Text.Cursor

/-! ### The lexemes of a line -/

/-- The next lexeme behind those that were found on a line, under the kind of the token before. -/
noncomputable def nextLexeme? (i : Nat) : List Located × Option TokenKind × ByteCursor →
    Option (List Located ⊕ List Located × Option TokenKind × ByteCursor)
  | (found, previous?, c) => do
    let c ← c.skipGaps?
    if c.atEnd then return .inl found
    else
      let reading := Lexeme.read previous? (← c.peekIn? 0) c.remaining.tail
      let next := c.advanceBy reading.text.length
      let start : Place := ⟨i, c.position, c.column⟩
      let stop : Place := ⟨i, next.position, next.column⟩
      let l : Located := ⟨⟨.lexeme reading.lexeme, next.textFrom c.position⟩, start, stop⟩
      return .inr (found ++ [l], Piece.previousAfter previous? l.piece, next)

/-- The lexemes of a line at their places, up to its end. There is no result if the scan does not end or takes a slice
that is not there. -/
noncomputable def lexemesIn? (i : Nat) (found : List Located) (previous? : Option TokenKind) (c : ByteCursor) :
    Option (List Located) := loop? (nextLexeme? i) (found, previous?, c)

variable {c : Cursor} {x : Char} {xs text rest : List Char} {previous? : Option TokenKind} {w i : Nat}
  {found : List Located}

/-- Where the cursor stands, on the line with an index. -/
def Text.Cursor.place (c : Cursor) (i : Nat) : Place := ⟨i, c.offset, c.column⟩

theorem place_advanceBy (ahead : c.rest = text ++ rest) (i : Nat) :
    (c.advanceBy text.length).place i = (c.place i).after c.tabWidth text ∧
      (c.advanceBy text.length).rest = rest := by
  rw [Cursor.advanceBy_eq, ahead, List.take_left, List.drop_left]
  refine ⟨?_, rfl⟩
  show Place.mk i (byteLength (text.reverse ++ c.passed)) _ = _
  rw [byteLength_append, byteLength_reverse, Nat.add_comm]
  rfl

theorem Text.Cursor.tabWidth_advanceBy (c : Cursor) (n : Nat) : (c.advanceBy n).tabWidth = c.tabWidth := by
  rw [advanceBy_eq]

/-- The text from the cursor up to a later one is what was passed. -/
theorem textFrom_advanceBy (ahead : c.rest = text ++ rest) :
    (c.advanceBy text.length).inBytes.textFrom c.offset = text := by
  have behind := (place_advanceBy ahead 0).2
  have whole : (c.advanceBy text.length).text = c.passed.reverse ++ (text ++ rest) := by
    rw [Cursor.text_advanceBy, Cursor.text, ahead]
  have le : byteLength c.passed.reverse ≤ (c.advanceBy text.length).offset := by
    rw [Cursor.advanceBy_eq, ← Cursor.offset_eq]
    show c.offset ≤ byteLength (_ ++ c.passed)
    rw [byteLength_append]
    exact Nat.le_add_left _ _
  have passed := Cursor.textFrom_inBytes whole le
  rw [behind, ← Cursor.offset_eq] at passed
  exact List.append_cancel_right passed

theorem lexemesIn?_of_skip {c d : ByteCursor} (same : c.skipGaps? = d.skipGaps?) :
    lexemesIn? i found previous? c = lexemesIn? i found previous? d := by
  rw [lexemesIn?, lexemesIn?, loop?_eq, loop?_eq, nextLexeme?, nextLexeme?, same]

/-- Past a gap the lexemes are those of what follows. -/
theorem lexemesAt_of_gap {start : Place} {p : Piece} (cut : Piece.first previous? x xs = (p, rest)) (gap : p.isGap) :
    lexemesAt w start previous? (x :: xs) = lexemesAt w (start.after w p.text) previous? rest := by
  rw [lexemesAt, Piece.pieces_cons, cut, locate, lexemes_cons_of_gap gap, Piece.previousAfter_of_isGap gap]
  rfl

theorem lexemesAt_of_lexeme {start : Place} {p : Piece} (cut : Piece.first previous? x xs = (p, rest))
    (lexeme : p.isGap = false) : lexemesAt w start previous? (x :: xs) = ⟨p, start, start.after w p.text⟩ ::
      lexemesAt w (start.after w p.text) (Piece.previousAfter previous? p) rest := by
  rw [lexemesAt, Piece.pieces_cons, cut, locate, lexemes, List.filter_cons_of_pos (by simp [lexeme])]
  rfl

/-- One turn of the scan where a lexeme starts. -/
theorem lexemesIn?_lexeme {p : Piece} (i : Nat) (ahead : c.rest = x :: xs)
    (stays : c.inBytes.skipGaps? = some c.inBytes)
    (read : p = ⟨.lexeme (Lexeme.read previous? x xs).lexeme, (Lexeme.read previous? x xs).text⟩) :
    lexemesIn? i found previous? c.inBytes =
      lexemesIn? i (found ++ [⟨p, c.place i, (c.advanceBy p.text.length).place i⟩]) (Piece.previousAfter previous? p)
        (c.advanceBy p.text.length).inBytes := by
  subst read
  have first : c.inBytes.peekIn? 0 = some x := by
    rw [Cursor.peekIn?_inBytes, Cursor.peek?, ahead]
    rfl
  have going : c.inBytes.atEnd = false := (Cursor.atEnd_inBytes c).trans (Cursor.atEnd_of_rest ahead)
  have spelled : (c.advanceBy (Lexeme.read previous? x xs).text.length).inBytes.textFrom c.inBytes.position =
      (Lexeme.read previous? x xs).text :=
    textFrom_advanceBy (ahead.trans (Lexeme.read_append previous? x xs).symm)
  rw [lexemesIn?, loop?_eq, nextLexeme?, stays, Option.bind_eq_bind, Option.bind_some, going, first,
    Cursor.remaining_inBytes, ahead, List.tail_cons, if_neg Bool.false_ne_true, Option.bind_eq_bind, Option.bind_some]
  dsimp only
  rw [Cursor.advanceBy_inBytes, spelled]
  rfl

/-- From a place on a line the scan ends, and gives the lexemes there. -/
theorem lexemesIn?_inBytes (c : Cursor) (i : Nat) (found : List Located) (previous? : Option TokenKind) :
    lexemesIn? i found previous? c.inBytes =
      some (found ++ lexemesAt c.tabWidth (c.place i) previous? c.rest) := by
  cases ahead : c.rest with
  | nil =>
    have at_end : c.inBytes.atEnd = true := by rw [Cursor.atEnd_inBytes, Cursor.atEnd, ahead]; rfl
    rw [lexemesIn?, loop?_eq, nextLexeme?, ByteCursor.skipGaps?_of_atEnd at_end, lexemesAt_nil, List.append_nil,
      Option.bind_eq_bind, Option.bind_some, if_pos at_end]
    rfl
  | cons x xs =>
    have whole := Piece.first_append previous? x xs
    have less := Piece.length_first_lt previous? x xs
    generalize cut : Piece.first previous? x xs = parts at whole less
    obtain ⟨p, rest⟩ := parts
    obtain ⟨place, behind⟩ := place_advanceBy (ahead.trans whole.symm) i
    have shorter : (c.advanceBy p.text.length).rest.length < c.rest.length := by
      rwa [← behind, ← ahead] at less
    have later (found : List Located) :=
      lexemesIn?_inBytes (c.advanceBy p.text.length) i found (Piece.previousAfter previous? p)
    simp only [place, behind, Cursor.tabWidth_advanceBy] at later
    cases gap : p.isGap with
    | true =>
      simp only [Piece.previousAfter_of_isGap gap] at later
      rw [lexemesIn?_of_skip (Cursor.skipGaps?_gap ahead cut gap), later, lexemesAt_of_gap cut gap]
    | false =>
      obtain ⟨stays, read⟩ := Cursor.skipGaps?_lexeme ahead cut gap
      rw [lexemesIn?_lexeme i ahead stays read, later, place, lexemesAt_of_lexeme cut gap, List.append_assoc]
      rfl
termination_by c.rest.length

/-! ### The whole run -/

/-- The lexemes of lines, each line under the kind of the last token before it. -/
noncomputable def lexemesOfLines? (tabWidth : Nat) (previous? : Option TokenKind) :
    List (Nat × Line) → Option (List Located)
  | [] => return []
  | (i, line) :: lines => do
    let found ← lexemesIn? i [] previous? (ByteCursor.start tabWidth line.text)
    let later ← lexemesOfLines? tabWidth ((found.map (·.piece)).foldl Piece.previousAfter previous?) lines
    return found ++ later

noncomputable def Source.tokenizeIn? (s : Source) : Option (Except EmptySource (List Token × List Diagnostic)) := do
  if s.isEmpty then return .error {}
  else
    let found ← lexemesOfLines? s.tabWidth none s.codeLines
    return .ok (found.filterMap (·.token?) ++ [s.eofToken], found.filterMap (·.report?))

/-- A run that takes its slices by offsets. There is no result if one of them is not there. -/
noncomputable def Analysis.ofBytesIn? (settings : SourceSettings) (bytes : ByteArray) :
    Option (Except RunFault Analysis) := do
  match ← Source.ofTextIn? settings (decode bytes) with
  | .error fault => return .error (.load fault)
  | .ok loaded =>
    match ← loaded.source.tokenizeIn? with
    | .error fault => return .error (.tokenize fault)
    | .ok (tokens, reports) => return .ok (ofLexed ⟨loaded.source, tokens, loaded.reports ++ reports⟩)

theorem foldl_lexemes (ls : List Located) (previous? : Option TokenKind) :
    ((lexemes ls).map (·.piece)).foldl Piece.previousAfter previous? =
      (ls.map (·.piece)).foldl Piece.previousAfter previous? := by
  induction ls generalizing previous? with
  | nil => rfl
  | cons l ls ih =>
    rw [List.map_cons, List.foldl_cons, ← ih]
    by_cases gap : l.piece.isGap
    · rw [lexemes_cons_of_gap gap, Piece.previousAfter_of_isGap gap]
    · rw [lexemes, List.filter_cons_of_pos (by simpa using gap)]
      rfl

theorem lexemesOfLines?_eq (tabWidth : Nat) (previous? : Option TokenKind) (lines : List (Nat × Line)) :
    lexemesOfLines? tabWidth previous? lines = some (lexemes (scanLines (max tabWidth 1) previous? lines)) := by
  induction lines generalizing previous? with
  | nil => rfl
  | cons head lines ih =>
    obtain ⟨i, line⟩ := head
    have found : lexemesIn? i [] previous? (ByteCursor.start tabWidth line.text) = some (lexemes _) :=
      lexemesIn?_inBytes (Cursor.start tabWidth line.text) i [] previous?
    rw [lexemesOfLines?, found, Option.bind_eq_bind, Option.bind_some, foldl_lexemes, map_piece_locate, ih,
      Option.bind_some, scanLines, lexemes_append]
    rfl

theorem Source.tokenizeIn?_eq (s : Source) : s.tokenizeIn? = some s.tokenize := by
  rw [tokenizeIn?, tokenize]
  split
  · rfl
  · rw [lexemesOfLines?_eq, Option.bind_eq_bind, Option.bind_some,
      filterMap_lexemes fun l gap => Located.token?_of_isGap gap,
      filterMap_lexemes fun l gap => Located.report?_of_isGap gap]
    rfl

theorem Analysis.ofBytesIn?_eq (settings : SourceSettings) (bytes : ByteArray) :
    ofBytesIn? settings bytes = some (ofBytes settings bytes) := by
  rw [ofBytesIn?, Source.ofTextIn?_eq, Option.bind_eq_bind, Option.bind_some, ofBytes, Source.ofBytes]
  cases Source.ofText settings (decode bytes) with
  | error fault => rfl
  | ok loaded =>
    dsimp only
    rw [Source.tokenizeIn?_eq, Option.bind_eq_bind, Option.bind_some, Lexed.ofLoad, Lexed.ofLoaded]
    cases loaded.source.tokenize with
    | error fault => rfl
    | ok result => rfl

theorem Text.Cursor.isSome_skipGaps? (c : Cursor) : c.inBytes.skipGaps?.isSome := by
  have scanned := lexemesIn?_inBytes c 0 [] none
  rw [lexemesIn?, loop?_eq] at scanned
  obtain ⟨_, turn, -⟩ := Option.bind_eq_some_iff.mp scanned
  obtain ⟨d, passed, -⟩ := Option.bind_eq_some_iff.mp turn
  rw [passed]
  rfl

/-- No run takes a slice that is not there. A run that takes its slices by offsets, and ends where one of them is out
of order, out of range or inside a character, is the run itself, whatever the bytes and the settings are. So are the
search for openers, the reading of lines and of what stands behind a closer; and wherever a cursor can get to, it looks
ahead and passes over comments. -/
theorem slices_in_range :
    (∀ cs start stop, (between? cs start stop).isSome ↔
      start ≤ stop ∧ stop ≤ byteLength cs ∧ OnBoundary cs start ∧ OnBoundary cs stop) ∧
    (∀ settings bytes, Analysis.ofBytesIn? settings bytes = some (Analysis.ofBytes settings bytes)) ∧
    (∀ front back, Source.openerFrom? (front ++ back) (byteLength front) =
      some ((Source.unclosedOpener? back).map fun before => byteLength (front ++ before))) ∧
    (∀ place before region after, Source.trailingIn? place (before ++ (region ++ after)) (byteLength before)
      (byteLength before + byteLength region) = some (Source.checkTrailing place before region)) ∧
    (∀ place before rest, Source.afterCloserIn? place (before ++ rest) (byteLength before) =
      some (Source.afterCloser place before rest)) ∧
    (∀ place region after, Source.nestedIn place region (region ++ after) = Source.checkNested place region) ∧
    (∀ place open? text, Source.readLineIn? place open? text = some (Source.readLine place open? text)) ∧
    (∀ (c : ByteCursor) n, c.peekIn? n = some (c.remaining[n]?.getD '\x00')) ∧
    ∀ tabWidth text moves, ∃ c, (ByteCursor.start tabWidth text).walk? moves = some c ∧
      c.skipComment?.isSome ∧ c.skipGaps?.isSome := by
  refine ⟨fun cs start stop => isSome_between?_iff, Analysis.ofBytesIn?_eq, Source.openerFrom?_append,
    Source.trailingIn?_append, Source.afterCloserIn?_append, Source.nestedIn_append, Source.readLineIn?_eq,
    fun c n => ?_, fun tabWidth text moves => ?_⟩
  · rw [ByteCursor.peekIn?_eq, ByteCursor.peek_eq]
  · have walked := (Cursor.start tabWidth text).walk?_inBytes moves
    refine ⟨_, walked, ?_, Cursor.isSome_skipGaps? _⟩
    rw [Cursor.skipComment?_inBytes]
    rfl

end VhdlFrontEnd
