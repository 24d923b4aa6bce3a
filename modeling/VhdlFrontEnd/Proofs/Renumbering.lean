import VhdlFrontEnd.Proofs.LineReports
import VhdlFrontEnd.Proofs.Placing

/-!
# Lines under other numbers

How lines are read does not depend on their numbers. Lines that get other numbers, one after the
other, are read as before and report at the new positions (`readLines_renumbered`), and they are cut
into the same pieces at the new places (`scanLines_renumbered`).
-/

namespace VhdlFrontEnd

/-- Other numbers for lines, which count from one, and for their indices, which count from zero. -/
structure Renumbering where
  number : Nat → Nat
  index : Nat → Nat
  number_succ : ∀ i, number (i + 1) = index i + 1

namespace Renumbering

/-- Every line moves `n` lines down. -/
def down (n : Nat) : Renumbering where
  number line := line + n
  index i := i + n
  number_succ i := Nat.add_right_comm i 1 n

/-- The lines from index `k` on move one line down. -/
def gapAt (k : Nat) : Renumbering where
  number line := if line ≤ k then line else line + 1
  index i := if i < k then i else i + 1
  number_succ i := (apply_ite (· + 1) (i < k) i (i + 1)).symm

end Renumbering

def Position.renumbered (r : Renumbering) (p : Position) : Position := ⟨r.number p.line, p.column⟩

def Diagnostic.renumbered (r : Renumbering) (d : Diagnostic) : Diagnostic :=
  { d with span := ⟨d.span.start.renumbered r, d.span.length⟩ }

def Token.renumbered (r : Renumbering) (t : Token) : Token :=
  ⟨t.kind, t.position.renumbered r, ⟨r.index t.range.line, t.range.start, t.range.length⟩⟩

def Place.renumbered (r : Renumbering) (p : Place) : Place := ⟨r.index p.line, p.offset, p.column⟩

def Located.renumbered (r : Renumbering) (l : Located) : Located :=
  ⟨l.piece, l.start.renumbered r, l.stop.renumbered r⟩

variable (r : Renumbering)

namespace Source

def LineReading.renumbered (x : LineReading) : LineReading :=
  ⟨x.line, x.open?.map (·.renumbered r), x.reports.map (·.renumbered r)⟩

/-! ### Reading lines -/

variable {w number : Nat} {open? : Option Position}

theorem checkNested_renumbered (region : List Char) : checkNested ⟨w, r.number number⟩ region =
    (checkNested ⟨w, number⟩ region).map (·.renumbered r) := by
  unfold checkNested
  split <;> rfl

theorem checkTrailing_renumbered (before region : List Char) :
    checkTrailing ⟨w, r.number number⟩ before region =
      (checkTrailing ⟨w, number⟩ before region).map (·.renumbered r) := by
  unfold checkTrailing
  dsimp only
  split <;> rfl

theorem afterCloser_renumbered (before rest : List Char) : afterCloser ⟨w, r.number number⟩ before rest =
    ((afterCloser ⟨w, number⟩ before rest).1.map (·.renumbered r),
      (afterCloser ⟨w, number⟩ before rest).2.map (·.renumbered r)) := by
  unfold afterCloser
  split
  · rw [checkTrailing_renumbered]
    rfl
  · rw [checkTrailing_renumbered]
    rfl

theorem readLine_renumbered (open? : Option Position) (text : List Char) :
    readLine ⟨w, r.number number⟩ (open?.map (·.renumbered r)) text =
      (readLine ⟨w, number⟩ open? text).renumbered r := by
  cases open? with
  | none =>
    rw [Option.map_none, readLine, readLine, readFresh, readFresh]
    dsimp only
    split
    · rfl
    · rfl
    · split
      · rw [afterCloser_renumbered]
        rfl
      · rfl
    · rw [LineReading.renumbered, Option.map_map]
      rfl
  | some start =>
    rw [Option.map_some, readLine, readLine, readInside, readInside]
    dsimp only
    split
    · rw [afterCloser_renumbered, checkNested_renumbered, LineReading.renumbered, List.map_append]
    · rw [checkNested_renumbered]
      rfl

/-- Lines whose new numbers follow each other from `first` on are read as before. -/
theorem readLines_renumbered {first : Nat} (open? : Option Position) {texts : List (List Char)}
    (follow : ∀ i < texts.length, r.number (number + i) = first + i) :
    readLines w first (open?.map (·.renumbered r)) texts =
      (readLines w number open? texts).map (·.renumbered r) := by
  induction texts generalizing number first open? with
  | nil => rfl
  | cons text texts ih =>
    have here : r.number number = first := follow 0 (Nat.succ_pos _)
    have behind : ∀ i < texts.length, r.number (number + 1 + i) = first + 1 + i := by
      intro i inside
      have next := follow (i + 1) (Nat.succ_lt_succ inside)
      rwa [Nat.add_comm i 1, ← Nat.add_assoc, ← Nat.add_assoc] at next
    rw [readLines, readLines, List.map_cons, ← here, readLine_renumbered, here]
    exact congrArg (_ :: ·) (ih _ behind)

theorem openAfter_renumbered (open? : Option Position) (rs : List LineReading) :
    openAfter (open?.map (·.renumbered r)) (rs.map (·.renumbered r)) =
      (openAfter open? rs).map (·.renumbered r) := by
  rw [openAfter, openAfter, List.getLast?_map]
  cases rs.getLast? <;> rfl

end Source

/-! ### Cutting lines into pieces -/

theorem Place.position_renumbered (p : Place) : (p.renumbered r).position = p.position.renumbered r := by
  rw [position, position, Position.renumbered, r.number_succ]
  rfl

theorem locate_renumbered (w : Nat) (start : Place) (ps : List Piece) :
    locate w (start.renumbered r) ps = (locate w start ps).map (·.renumbered r) := by
  induction ps generalizing start with
  | nil => rfl
  | cons p ps ih => exact congrArg (_ :: ·) (ih (start.after w p.text))

theorem scanLines_renumbered (w : Nat) (before? : Option TokenKind) (lines : List (Nat × Line)) :
    scanLines w before? (lines.map fun line => (r.index line.1, line.2)) =
      (scanLines w before? lines).map (·.renumbered r) := by
  induction lines generalizing before? with
  | nil => rfl
  | cons line lines ih =>
    obtain ⟨i, line⟩ := line
    rw [List.map_cons, scanLines, scanLines, List.map_append, ← locate_renumbered, ih]
    rfl

theorem Located.token?_renumbered (l : Located) :
    (l.renumbered r).token? = l.token?.map (·.renumbered r) := by
  unfold token? renumbered
  dsimp only
  rw [Place.position_renumbered, Option.map_map]
  rfl

theorem Located.report?_renumbered (l : Located) :
    (l.renumbered r).report? = l.report?.map (·.renumbered r) := by
  unfold report? renumbered
  dsimp only
  rw [Place.position_renumbered, Option.map_map]
  rfl

end VhdlFrontEnd
