import Mathlib.Data.List.Basic
import VhdlFrontEnd.Proofs.Renumbering

/-!
# Lines further down

Lines can be read in two parts (`readLines_append`, `scanLines_append`). The second part is read as it
would be at the start of a source, but for the numbers of its lines (`readLines_below`,
`scanLines_below`).
-/

namespace VhdlFrontEnd

/-! ### Moving down by lines -/

/-- The position `n` lines further down. -/
def Position.below (n : Nat) (p : Position) : Position := ⟨p.line + n, p.column⟩

def Diagnostic.below (n : Nat) (d : Diagnostic) : Diagnostic :=
  { d with span := ⟨d.span.start.below n, d.span.length⟩ }

def Token.below (n : Nat) (t : Token) : Token :=
  ⟨t.kind, t.position.below n, ⟨t.range.line + n, t.range.start, t.range.length⟩⟩

def Place.below (n : Nat) (p : Place) : Place := ⟨p.line + n, p.offset, p.column⟩

def Located.below (n : Nat) (l : Located) : Located := ⟨l.piece, l.start.below n, l.stop.below n⟩

namespace Source

def LineReading.below (n : Nat) (r : LineReading) : LineReading :=
  ⟨r.line, r.open?.map (·.below n), r.reports.map (·.below n)⟩

/-! ### Reading lines -/

theorem readLines_below (w number n : Nat) (open? : Option Position) (texts : List (List Char)) :
    readLines w (number + n) (open?.map (·.below n)) texts =
      (readLines w number open? texts).map (·.below n) :=
  readLines_renumbered (.down n) open? fun i _ => Nat.add_right_comm number i n

theorem openAfter_below (n : Nat) (rs : List LineReading) :
    openAfter none (rs.map (·.below n)) = (openAfter none rs).map (·.below n) :=
  openAfter_renumbered (.down n) none rs

theorem readLines_append (w number : Nat) (open? : Option Position) (texts more : List (List Char)) :
    readLines w number open? (texts ++ more) = readLines w number open? texts ++
      readLines w (number + texts.length) (openAfter open? (readLines w number open? texts)) more := by
  induction texts generalizing number open? with
  | nil => rfl
  | cons text texts ih =>
    rw [List.cons_append, readLines, readLines, ih, openAfter_cons, List.length_cons,
      Nat.add_right_comm, Nat.add_assoc number]
    rfl

end Source

/-! ### Cutting lines into pieces -/

/-- An apostrophe is read alike behind both kinds. -/
def SameTick (before? other? : Option TokenKind) : Prop :=
  before?.any TokenKind.endsName = other?.any TokenKind.endsName

variable {before? other? : Option TokenKind} {w : Nat}

theorem Piece.first_congr (same : SameTick before? other?) (c : Char) (rest : List Char) :
    first before? c rest = first other? c rest := by
  rw [first, first, Lexeme.read, Lexeme.read, same]

theorem Piece.previousAfter_congr (same : SameTick before? other?) (p : Piece) :
    SameTick (previousAfter before? p) (previousAfter other? p) := by
  unfold previousAfter
  cases p.kind? with
  | none => exact same
  | some kind => exact Eq.refl _

theorem Piece.pieces_congr {before? other? : Option TokenKind} (same : SameTick before? other?)
    (cs : List Char) : pieces before? cs = pieces other? cs := by
  cases cs with
  | nil => rw [pieces_nil, pieces_nil]
  | cons c rest =>
    have shorter := length_first_lt other? c rest
    rw [pieces_cons, pieces_cons, first_congr same, pieces_congr (previousAfter_congr same _) _]
termination_by cs.length
decreasing_by exact shorter

theorem Piece.foldl_previousAfter_congr (same : SameTick before? other?) (ps : List Piece) :
    SameTick (ps.foldl previousAfter before?) (ps.foldl previousAfter other?) := by
  induction ps generalizing before? other? with
  | nil => exact same
  | cons p ps ih => exact ih (previousAfter_congr same p)

/-- Of the tokens before some lines, only the last one matters, and only for apostrophes. -/
theorem scanLines_congr (same : SameTick before? other?) (lines : List (Nat × Line)) :
    scanLines w before? lines = scanLines w other? lines := by
  induction lines generalizing before? other? with
  | nil => rfl
  | cons line lines ih =>
    obtain ⟨i, line⟩ := line
    rw [scanLines, scanLines, Piece.pieces_congr same]
    exact congrArg (_ ++ ·) (ih (Piece.foldl_previousAfter_congr same _))

theorem scanLines_append (w : Nat) (before? : Option TokenKind) (lines more : List (Nat × Line)) :
    scanLines w before? (lines ++ more) =
      scanLines w before? lines ++ scanLines w (kindAfter before? lines) more := by
  induction lines generalizing before? with
  | nil => rfl
  | cons line lines ih =>
    obtain ⟨i, line⟩ := line
    rw [List.cons_append, scanLines, scanLines, ih, kindAfter_cons, List.append_assoc]

theorem scanLines_below (w n : Nat) (before? : Option TokenKind) (lines : List (Nat × Line)) :
    scanLines w before? (lines.map fun line => (line.1 + n, line.2)) =
      (scanLines w before? lines).map (·.below n) :=
  scanLines_renumbered (.down n) w before? lines

theorem Located.token?_below (n : Nat) (l : Located) : (l.below n).token? = l.token?.map (·.below n) :=
  l.token?_renumbered (.down n)

theorem Located.report?_below (n : Nat) (l : Located) :
    (l.below n).report? = l.report?.map (·.below n) :=
  l.report?_renumbered (.down n)

/-! ### The last token -/

theorem foldl_previousAfter (before? : Option TokenKind) (ps : List Piece) :
    ps.foldl Piece.previousAfter before? = (ps.filterMap (·.kind?)).getLast?.or before? := by
  induction ps generalizing before? with
  | nil => rfl
  | cons p ps ih =>
    rw [List.foldl_cons, ih, Piece.previousAfter, List.filterMap_cons]
    cases p.kind? with
    | none => rfl
    | some kind => rw [List.getLast?_cons]; cases (ps.filterMap (·.kind?)).getLast? <;> rfl

theorem kindAfter_eq (w : Nat) (before? : Option TokenKind) (lines : List (Nat × Line)) :
    kindAfter before? lines = ((scanLines w before? lines).map (·.piece)).foldl Piece.previousAfter before? := by
  induction lines generalizing before? with
  | nil => rfl
  | cons line lines ih =>
    obtain ⟨i, line⟩ := line
    rw [kindAfter_cons, scanLines, List.map_append, List.foldl_append, map_piece_locate, ih]

theorem map_kind_scan (ls : List Located) :
    (ls.filterMap (·.token?)).map (·.kind) = (ls.map (·.piece)).filterMap (·.kind?) := by
  rw [List.map_filterMap, List.filterMap_map]
  refine List.filterMap_congr fun l _ => ?_
  rw [Located.token?, Option.map_map]
  exact congrFun Option.map_id _

end VhdlFrontEnd
