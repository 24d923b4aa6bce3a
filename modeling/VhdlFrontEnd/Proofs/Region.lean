import Mathlib.Data.List.Induction
import VhdlFrontEnd.Proofs.Below
import VhdlFrontEnd.Proofs.Roles
import VhdlFrontEnd.Proofs.Run

/-!
# Regions of block comments

A block comment that is left open on its line makes a region of the lines behind it. `regionStep`
says what one line does to the region it is read in; `regions_tracked` says what is known about the
region after any number of lines, and which region is reported at the end.
-/

namespace VhdlFrontEnd

/-- A line in the role may leave a comment open that starts on it. -/
def Category.MayOpen (c : Category) : Prop :=
  c = .blockCommentStart ∨ c = .code ∨ c = .lineComment ∨ c = .blockCommentEnd

/-- At some byte offset, which has the column, stands an opener that no closer on the line follows. -/
structure Line.StartsRegion (w : Nat) (line : Line) (column : Nat) : Prop where
  role : line.category.MayOpen
  opener : ∃ offset front back, Text.cut? line.text offset = some (front, '/' :: '*' :: back) ∧
    ¬ ['*', '/'] <:+: back ∧ column = Text.columnAfter w front

/-- The region that starts at the position reaches from there over the last of the lines. -/
def RegionSince (w : Nat) (lines : List Line) (p : Position) : Prop :=
  ∃ before line inside, lines = before ++ line :: inside ∧ p.line = before.length + 1 ∧
    line.StartsRegion w p.column ∧ ∀ l ∈ inside, l.category = .blockCommentBody

variable {w : Nat}

theorem Line.startsRegion_of_opener {role : Category} {back : List Char} (mayOpen : role.MayOpen)
    (front : List Char) (unclosed : ¬ ['*', '/'] <:+: back) :
    (Line.mk role (front ++ '/' :: '*' :: back)).StartsRegion w (Text.columnAfter w front) :=
  ⟨mayOpen, Text.byteLength front, front, back, Text.cut?_append _ _, unclosed, rfl⟩

namespace RegionSince

variable {lines : List Line} {line : Line} {p : Position}

theorem of_start (here : p.line = lines.length + 1) (starts : line.StartsRegion w p.column) :
    RegionSince w (lines ++ [line]) p :=
  ⟨lines, line, [], rfl, here, starts, List.forall_mem_nil _⟩

theorem of_body (since : RegionSince w lines p) (body : line.category = .blockCommentBody) :
    RegionSince w (lines ++ [line]) p := by
  obtain ⟨before, first, inside, rfl, here, starts, bodies⟩ := since
  refine ⟨before, first, inside ++ [line], ?_, here, starts, ?_⟩
  · rw [List.append_assoc]
    rfl
  · exact List.forall_mem_append.mpr ⟨bodies, List.forall_mem_singleton.mpr body⟩

end RegionSince

namespace Source

variable {place : LinePlace} {open? : Option Position} {text : List Char}

/-! ### One line -/

/-- What the reading of a line does to the region: it stands in one if a comment is open before it,
it goes on with that one or starts the next, and it does not report it. -/
structure RegionStep (place : LinePlace) (open? : Option Position) (r : LineReading) : Prop where
  inComment : r.line.category.InComment ↔ open? ≠ none
  body : r.line.category = .blockCommentBody → ¬ ['*', '/'] <:+: r.line.text
  closes : r.line.category = .blockCommentEnd → ['*', '/'] <:+: r.line.text
  opens : ∀ p ∈ r.open?, (p ∈ open? ∧ r.line.category = .blockCommentBody) ∨
    (p.line = place.number ∧ r.line.StartsRegion place.tabWidth p.column)
  silent : ∀ d ∈ r.reports, d.code? ≠ some .unterminatedComment

theorem starts_of_afterCloser {before rest : List Char} {p : Position} (role : Category)
    (mayOpen : role.MayOpen) (opened : p ∈ (afterCloser place before rest).1) :
    p.line = place.number ∧ (Line.mk role (before ++ rest)).StartsRegion place.tabWidth p.column := by
  unfold afterCloser at opened
  cases found : unclosedOpener? rest with
  | none =>
    rw [found] at opened
    exact nomatch opened
  | some front =>
    rw [found] at opened
    cases opened
    obtain ⟨back, rfl, unclosed, -⟩ := unclosedOpener?_eq_some_iff.mp found
    rw [← List.append_assoc]
    exact ⟨rfl, Line.startsRegion_of_opener mayOpen (before ++ front) unclosed⟩

theorem opens_of_readFresh {p : Position} (opened : p ∈ (readFresh place text).open?) :
    p.line = place.number ∧ (readFresh place text).line.StartsRegion place.tabWidth p.column := by
  have whole := List.takeWhile_append_dropWhile (p := Text.isBlank) (l := text)
  unfold readFresh at opened ⊢
  dsimp only at opened ⊢
  split at opened
  · exact nomatch opened
  · exact nomatch opened
  · next body start =>
    rw [start] at whole
    split at opened
    · next inside rest closes =>
      rw [splitMark?_eq_some closes] at whole
      have starts := starts_of_afterCloser .lineComment (Or.inr (Or.inr (Or.inl rfl))) opened
      have whole : text.takeWhile Text.isBlank ++ '/' :: '*' :: inside ++ ['*', '/'] ++ rest = text := by
        simpa using whole
      rwa [whole] at starts
    · next unclosed =>
      cases opened
      have starts := Line.startsRegion_of_opener (w := place.tabWidth) (Or.inl (Eq.refl Category.blockCommentStart))
        (text.takeWhile Text.isBlank) (splitMark?_eq_none_iff.mp unclosed)
      rw [whole] at starts
      exact ⟨rfl, starts⟩
  · obtain ⟨front, found, rfl⟩ := Option.map_eq_some_iff.mp opened
    obtain ⟨back, rfl, unclosed, -⟩ := unclosedOpener?_eq_some_iff.mp found
    exact ⟨rfl, Line.startsRegion_of_opener (Or.inr (Or.inl rfl)) front unclosed⟩

theorem opens_of_readInside {start p : Position} (opened : p ∈ (readInside place start text).open?) :
    (p = start ∧ (readInside place start text).line.category = .blockCommentBody) ∨
      (p.line = place.number ∧
        (readInside place start text).line.StartsRegion place.tabWidth p.column) := by
  unfold readInside at opened ⊢
  split at opened
  · next inside rest closes =>
    have starts := starts_of_afterCloser .blockCommentEnd (Or.inr (Or.inr (Or.inr rfl))) opened
    have whole : inside ++ ['*', '/'] ++ rest = text := by
      rw [splitMark?_eq_some closes]
      simp
    rw [whole] at starts
    exact Or.inr starts
  · cases opened
    exact Or.inl ⟨rfl, rfl⟩

theorem silent_of_readAt {r : LineReading} (read : ReadAt place open? text r) :
    ∀ d ∈ r.reports, d.code? ≠ some .unterminatedComment := by
  obtain ⟨nested, trailing, split, nested_at, trailing_at⟩ := read.reports
  rw [split]
  refine List.forall_mem_append.mpr ⟨?_, ?_⟩
  · rcases nested_at with rfl | ⟨front, back, -, rfl⟩
    · exact List.forall_mem_nil _
    · exact List.forall_mem_singleton.mpr fun same => absurd (Option.some.inj same) (by decide)
  · rcases trailing_at with rfl | ⟨before, tail, after, -, -, rfl⟩
    · exact List.forall_mem_nil _
    · exact List.forall_mem_singleton.mpr fun same => absurd (Option.some.inj same) (by decide)

theorem regionStep (place : LinePlace) (open? : Option Position) (text : List Char) :
    RegionStep place open? (readLine place open? text) := by
  have silent := silent_of_readAt (readLine_at place open? text)
  cases open? with
  | none =>
    have outside : ¬ (readLine place none text).line.category.InComment := fun inside =>
      inComment_readLine_iff.mp inside rfl
    refine ⟨inComment_readLine_iff, fun body => ?_, fun ends => ?_, fun p opened => ?_, silent⟩
    · exact absurd (Or.inl body) outside
    · exact absurd (Or.inr ends) outside
    · exact Or.inr (opens_of_readFresh opened)
  | some start =>
    refine ⟨inComment_readLine_iff, fun body => ?_, fun ends => ?_, fun p opened => ?_, silent⟩
    · rw [text_readLine]
      rw [readLine, readInside] at body
      split at body
      · cases body
      · next unclosed => exact splitMark?_eq_none_iff.mp unclosed
    · rw [text_readLine]
      rw [readLine, readInside] at ends
      split at ends
      · next inside rest closes =>
        exact ⟨inside, rest, by rw [splitMark?_eq_some closes]; simp⟩
      · cases ends
    · rcases opens_of_readInside opened with ⟨rfl, body⟩ | starts
      · exact Or.inl ⟨rfl, body⟩
      · exact Or.inr starts

/-! ### All lines -/

variable {texts : List (List Char)}

theorem length_readLines (w number : Nat) (open? : Option Position) (texts : List (List Char)) :
    (readLines w number open? texts).length = texts.length := by
  rw [← List.length_map (·.line.text), texts_readLines]

theorem take_readLines (w number n : Nat) (open? : Option Position) (texts : List (List Char)) :
    (readLines w number open? texts).take n = readLines w number open? (texts.take n) := by
  induction texts generalizing number n open? with
  | nil => simp [readLines]
  | cons text texts ih =>
    cases n with
    | zero => rfl
    | succ n => rw [readLines, List.take_succ_cons, List.take_succ_cons, readLines, ih]

/-- What is read of the first `n` lines of a text, before any other line is. -/
def firstReadings (w : Nat) (code : List Char) (n : Nat) : List LineReading :=
  readLines w 1 none ((Text.physicalLines code).take n)

theorem lines_firstReadings {settings : SourceSettings} {code : List Char} {loaded : Loaded}
    (load : ofText settings code = .ok loaded) (n : Nat) :
    (firstReadings settings.tabWidth code n).map (·.line) = loaded.source.lines.toList.take n := by
  obtain ⟨-, rfl⟩ := ofText_eq_ok.mp load
  rw [firstReadings, ← take_readLines, List.map_take]
  rfl

theorem regionStep_of_mem {r : LineReading} {number : Nat} (mem : r ∈ readLines w number open? texts) :
    ∃ place before?, RegionStep place before? r := by
  obtain ⟨i, here⟩ := List.mem_iff_getElem?.mp mem
  obtain ⟨text, -, rfl⟩ := getElem?_readLines here
  exact ⟨_, _, regionStep _ _ text⟩

/-- A comment that is open after some lines has been open since an opener on one of them. -/
theorem regionSince_of_openAfter {p : Position} (opened : p ∈ openAfter none (readLines w 1 none texts)) :
    RegionSince w ((readLines w 1 none texts).map (·.line)) p := by
  induction texts using List.reverseRecOn generalizing p with
  | nil => exact nomatch opened
  | append_singleton texts text ih =>
    have last : readLines w 1 none (texts ++ [text]) = readLines w 1 none texts ++
        [readLine ⟨w, 1 + texts.length⟩ (openAfter none (readLines w 1 none texts)) text] :=
      readLines_append w 1 none texts [text]
    rw [last, openAfter, List.getLast?_concat] at opened
    rw [last, List.map_append]
    rcases (regionStep _ _ text).opens p opened with ⟨before, body⟩ | ⟨here, starts⟩
    · exact (ih before).of_body body
    · refine RegionSince.of_start ?_ starts
      rw [here, List.length_map, length_readLines, Nat.add_comm]

end Source

/-- After any first lines of a source, a comment is open if and only if the next line stands inside
one; and it is open since an opener that nothing closes, over all lines behind that. What is open
after the last line is reported, last of all, and is reported only then. -/
theorem regions_tracked {settings : SourceSettings} {code : List Char} {loaded : Loaded}
    (load : Source.ofText settings code = .ok loaded) :
    (∀ n, ((Source.firstReadings settings.tabWidth code n).map (·.line) =
        loaded.source.lines.toList.take n) ∧
      (∀ next, loaded.source.lines.get? n = some next →
        (next.category.InComment ↔
          Source.openAfter none (Source.firstReadings settings.tabWidth code n) ≠ none)) ∧
      ∀ p, Source.openAfter none (Source.firstReadings settings.tabWidth code n) = some p →
        RegionSince settings.tabWidth (loaded.source.lines.toList.take n) p) ∧
    (∀ line ∈ loaded.source.lines.toList,
      (line.category = .blockCommentBody → ¬ ['*', '/'] <:+: line.text) ∧
      (line.category = .blockCommentEnd → ['*', '/'] <:+: line.text)) ∧
    (∃ others, loaded.reports = others ++ ((Source.openAfter none (Source.firstReadings
        settings.tabWidth code loaded.source.lineCount)).map Source.unterminatedError).toList ∧
      ∀ d ∈ others, d.code? ≠ some .unterminatedComment) ∧
    loaded.source.lines.toList.map (·.text) = Text.physicalLines code := by
  refine ⟨fun n => ?_, ?_, ?_, Source.texts_ofText load⟩
  · have lines := Source.lines_firstReadings load n
    refine ⟨lines, fun next follows => ?_, fun p opened => ?_⟩
    · rw [Source.get?_ofText load] at follows
      obtain ⟨r, reading, rfl⟩ := Option.map_eq_some_iff.mp follows
      obtain ⟨text, -, rfl⟩ := Source.getElem?_readLines reading
      exact (Source.regionStep _ _ text).inComment
    · rw [← lines]
      exact Source.regionSince_of_openAfter opened
  · obtain ⟨-, rfl⟩ := Source.ofText_eq_ok.mp load
    intro line mem
    obtain ⟨r, read, rfl⟩ := List.mem_map.mp mem
    obtain ⟨_, _, step⟩ := Source.regionStep_of_mem read
    exact ⟨step.body, step.closes⟩
  · obtain ⟨-, rfl⟩ := Source.ofText_eq_ok.mp load
    rw [Source.lineCount_ofLines, Source.firstReadings, List.take_length]
    refine ⟨_, rfl, fun d mem => ?_⟩
    obtain ⟨r, read, mem⟩ := List.mem_flatMap.mp mem
    obtain ⟨_, _, step⟩ := Source.regionStep_of_mem read
    exact step.silent d mem

/-- The line that closes one comment opens the next, which is the one that is left open. -/
theorem regions_tracked_of_reopened :
    ∃ loaded, Source.ofText {} "/*\n*/ /* b\nc".toList = .ok loaded ∧
      loaded.reports = [Source.unterminatedError ⟨2, 4⟩] ∧
      RegionSince 1 loaded.source.lines.toList ⟨2, 4⟩ ∧
      loaded.source.lines.toList.map (·.text) = ["/*".toList, "*/ /* b".toList, "c".toList] := by
  have loads : Source.ofText {} "/*\n*/ /* b\nc".toList = .ok ⟨⟨.ofList [⟨.blockCommentStart, "/*".toList⟩,
      ⟨.blockCommentEnd, "*/ /* b".toList⟩, ⟨.blockCommentBody, "c".toList⟩], 1⟩,
      [Source.unterminatedError ⟨2, 4⟩]⟩ := by
    decide +kernel
  obtain ⟨after, -, -, texts⟩ := regions_tracked loads
  have opened : Source.openAfter none (Source.firstReadings 1 "/*\n*/ /* b\nc".toList 3) = some ⟨2, 4⟩ := by
    decide +kernel
  exact ⟨_, loads, rfl, (after 3).2.2 _ opened, by rw [texts]; decide +kernel⟩

end VhdlFrontEnd
