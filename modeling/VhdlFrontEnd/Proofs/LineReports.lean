import VhdlFrontEnd.Proofs.Openers
import VhdlFrontEnd.Source.Load

/-!
# What the reading of lines reports

A line gives at most one report of an opener inside a comment and at most one of text behind a
closer (`reports_readLine`). `marks_of_readLines` and `marks_of_unterminated` show that these, and
the report of a comment that never closes, cover text that stands on their lines.
-/

namespace VhdlFrontEnd

/-- The report covers columns of the text `marked` where it stands on its line. -/
def Diagnostic.Marks (w : Nat) (texts : List (List Char)) (d : Diagnostic) (marked : List Char) : Prop :=
  ∃ i before after, texts[i]? = some (before ++ marked ++ after) ∧
    d.position = ⟨i + 1, Text.columnAfter w before⟩ ∧ d.span.length ≤ Text.width w marked

/-- Where a tab has some width, a text takes at least one column for each character. -/
theorem Text.length_le_width {w : Nat} (tab : 1 ≤ w) (cs : List Char) : cs.length ≤ width w cs := by
  induction cs with
  | nil => exact Nat.le_refl 0
  | cons c cs ih =>
    have : 1 ≤ charWidth w c := by
      unfold charWidth
      split
      · exact tab
      · exact Nat.le_refl 1
    rw [List.length_cons, width_cons]
    omega

namespace Source

variable {place : LinePlace} {open? : Option Position} {text : List Char}

/-! ### One line -/

/-- An opener in the text stands at the position. -/
def OpensAt (place : LinePlace) (text : List Char) (p : Position) : Prop :=
  ∃ front back, text = front ++ '/' :: '*' :: back ∧ p = place.after front

/-- At most an opener in the text is reported. -/
def NestedAt (place : LinePlace) (text : List Char) (ds : List Diagnostic) : Prop :=
  ds = [] ∨ ∃ front back, text = front ++ '/' :: '*' :: back ∧ ds = [nestedWarning place front]

/-- At most a tail in the text is reported. -/
def TrailingAt (place : LinePlace) (text : List Char) (ds : List Diagnostic) : Prop :=
  ds = [] ∨ ∃ before tail after, text = before ++ tail ++ after ∧ tail ≠ [] ∧
    ds = [trailingWarning place before tail]

theorem checkNested_at (place : LinePlace) (region rest : List Char) :
    NestedAt place (region ++ rest) (checkNested place region) := by
  unfold checkNested
  cases found : splitOpener? region with
  | none => exact Or.inl rfl
  | some split =>
    refine Or.inr ⟨split.1, split.2 ++ rest, ?_, rfl⟩
    rw [splitMark?_eq_some found, List.append_assoc]
    rfl

theorem trimEnd_prefix (cs : List Char) : trimEnd cs <+: cs := by
  have back := List.reverse_prefix.mpr (List.dropWhile_suffix Text.isBlank (l := cs.reverse))
  rwa [List.reverse_reverse] at back

theorem checkTrailing_at (place : LinePlace) (before region rest : List Char) :
    TrailingAt place (before ++ region ++ rest) (checkTrailing place before region) := by
  unfold checkTrailing
  dsimp only
  split
  · exact Or.inl rfl
  · next other =>
    obtain ⟨after, whole⟩ := trimEnd_prefix (region.dropWhile Text.isBlank)
    refine Or.inr ⟨_, _, after ++ rest, ?_, fun empty => other ?_, rfl⟩
    · have split := List.takeWhile_append_dropWhile (p := Text.isBlank) (l := region)
      rw [← whole] at split
      simpa using congrArg (before ++ · ++ rest) split.symm
    · rw [empty]
      rfl

theorem afterCloser_at (place : LinePlace) (before rest : List Char) :
    TrailingAt place (before ++ rest) (afterCloser place before rest).2 ∧
      ∀ p ∈ (afterCloser place before rest).1, OpensAt place (before ++ rest) p := by
  unfold afterCloser
  cases opened : unclosedOpener? rest with
  | none =>
    refine ⟨?_, nofun⟩
    rw [← List.append_nil (before ++ rest)]
    exact checkTrailing_at place before rest []
  | some front =>
    obtain ⟨body, rfl, -⟩ := unclosedOpener?_eq_some_iff.mp opened
    rw [← List.append_assoc]
    refine ⟨checkTrailing_at place before front _, ?_⟩
    rintro p ⟨⟩
    exact ⟨before ++ front, body, rfl, rfl⟩

/-- All that the reading of a line can report, and where it can leave a comment open. -/
structure ReadAt (place : LinePlace) (open? : Option Position) (text : List Char) (r : LineReading) :
    Prop where
  reports : ∃ nested trailing, r.reports = nested ++ trailing ∧ NestedAt place text nested ∧
    TrailingAt place text trailing
  opens : ∀ p ∈ r.open?, p ∈ open? ∨ OpensAt place text p

theorem readAt_of_silent {r : LineReading} (silent : r.reports = [])
    (opens : ∀ p ∈ r.open?, OpensAt place text p) : ReadAt place open? text r :=
  ⟨⟨[], [], silent, Or.inl rfl, Or.inl rfl⟩, fun p mem => Or.inr (opens p mem)⟩

theorem readFresh_at (place : LinePlace) (text : List Char) :
    ReadAt place none text (readFresh place text) := by
  have whole := List.takeWhile_append_dropWhile (p := Text.isBlank) (l := text)
  unfold readFresh
  dsimp only
  split
  · exact readAt_of_silent rfl nofun
  · exact readAt_of_silent rfl nofun
  · next body start =>
    rw [start] at whole
    split
    · next inside rest closes =>
      obtain ⟨trailing, opens⟩ := afterCloser_at place
        (text.takeWhile Text.isBlank ++ '/' :: '*' :: inside ++ ['*', '/']) rest
      rw [splitMark?_eq_some closes] at whole
      have whole : text.takeWhile Text.isBlank ++ '/' :: '*' :: inside ++ ['*', '/'] ++ rest = text := by
        simpa using whole
      rw [whole] at trailing opens
      exact ⟨⟨[], _, rfl, Or.inl rfl, trailing⟩, fun p mem => Or.inr (opens p mem)⟩
    · refine readAt_of_silent rfl ?_
      rintro p ⟨⟩
      exact ⟨_, body, whole.symm, rfl⟩
  · refine readAt_of_silent rfl fun p mem => ?_
    obtain ⟨front, opened, rfl⟩ := Option.map_eq_some_iff.mp mem
    obtain ⟨body, split, -⟩ := unclosedOpener?_eq_some_iff.mp opened
    exact ⟨front, body, split, rfl⟩

theorem readInside_at (place : LinePlace) (start : Position) (text : List Char) :
    ReadAt place (some start) text (readInside place start text) := by
  unfold readInside
  split
  · next inside rest closes =>
    obtain ⟨trailing, opens⟩ := afterCloser_at place (inside ++ ['*', '/']) rest
    have whole : inside ++ ['*', '/'] ++ rest = text := by
      rw [splitMark?_eq_some closes]
      simp
    have nested := checkNested_at place inside (['*', '/'] ++ rest)
    rw [← List.append_assoc] at nested
    rw [whole] at nested trailing opens
    exact ⟨⟨_, _, rfl, nested, trailing⟩, fun p mem => Or.inr (opens p mem)⟩
  · have nested := checkNested_at place text []
    rw [List.append_nil] at nested
    exact ⟨⟨_, [], (List.append_nil _).symm, nested, Or.inl rfl⟩, fun p mem => Or.inl mem⟩

theorem readLine_at (place : LinePlace) (open? : Option Position) (text : List Char) :
    ReadAt place open? text (readLine place open? text) := by
  cases open? with
  | none => exact readFresh_at place text
  | some start => exact readInside_at place start text

/-! ### All lines -/

variable {w number : Nat} {texts : List (List Char)}

theorem openAfter_cons (open? : Option Position) (r : LineReading) (rs : List LineReading) :
    openAfter open? (r :: rs) = openAfter r.open? rs := by
  cases rs with
  | nil => rfl
  | cons next rs =>
    rw [openAfter, openAfter, List.getLast?_cons_cons, List.getLast?_eq_some_getLast (List.cons_ne_nil next rs)]
    rfl

/-- Each line is read under the comment that the lines before it leave open. -/
theorem getElem?_readLines {i : Nat} {r : LineReading}
    (h : (readLines w number open? texts)[i]? = some r) :
    ∃ text, texts[i]? = some text ∧
      r = readLine ⟨w, number + i⟩ (openAfter open? (readLines w number open? (texts.take i))) text := by
  induction texts generalizing number open? i with
  | nil => exact nomatch h
  | cons text texts ih =>
    cases i with
    | zero =>
      cases h
      exact ⟨text, rfl, rfl⟩
    | succ i =>
      obtain ⟨text', here, rfl⟩ := ih h
      refine ⟨text', here, ?_⟩
      rw [List.take_succ_cons, readLines, openAfter_cons, Nat.add_assoc, Nat.add_comm 1 i]

/-- A comment that is open after lines was open before them, or one of them opens it. -/
theorem openAfter_readLines {p : Position} (h : openAfter open? (readLines w number open? texts) = some p) :
    open? = some p ∨ ∃ i text, texts[i]? = some text ∧ OpensAt ⟨w, number + i⟩ text p := by
  induction texts generalizing number open? with
  | nil => exact Or.inl h
  | cons text texts ih =>
    rw [readLines, openAfter_cons] at h
    rcases ih h with left | ⟨i, text, here, opens⟩
    · rcases (readLine_at ⟨w, number⟩ open? text).opens p left with before | opens
      · exact Or.inl before
      · exact Or.inr ⟨0, text, rfl, opens⟩
    · rw [Nat.add_assoc, Nat.add_comm 1 i] at opens
      exact Or.inr ⟨i + 1, text, here, opens⟩

theorem marks_of_nestedAt {i : Nat} {ds : List Diagnostic} (tab : 1 ≤ w) (here : texts[i]? = some text)
    (nested : NestedAt ⟨w, 1 + i⟩ text ds) : ∀ d ∈ ds, ∃ marked, marked ≠ [] ∧ d.Marks w texts marked := by
  rcases nested with rfl | ⟨front, back, rfl, rfl⟩
  · exact List.forall_mem_nil _
  · refine List.forall_mem_singleton.mpr ⟨['/', '*'], List.cons_ne_nil _ _, i, front, back, ?_, ?_, ?_⟩
    · rw [here, List.append_assoc]
      rfl
    · rw [Nat.add_comm i 1]
      rfl
    · exact Text.length_le_width tab ['/', '*']

theorem marks_of_trailingAt {i : Nat} {ds : List Diagnostic} (tab : 1 ≤ w) (here : texts[i]? = some text)
    (trailing : TrailingAt ⟨w, 1 + i⟩ text ds) :
    ∀ d ∈ ds, ∃ marked, marked ≠ [] ∧ d.Marks w texts marked := by
  rcases trailing with rfl | ⟨before, tail, after, rfl, nonempty, rfl⟩
  · exact List.forall_mem_nil _
  · refine List.forall_mem_singleton.mpr ⟨tail, nonempty, i, before, after, here, ?_, ?_⟩
    · rw [Nat.add_comm i 1]
      rfl
    · exact Text.length_le_width tab tail

theorem marks_of_readLines {d : Diagnostic} (tab : 1 ≤ w)
    (mem : d ∈ (readLines w 1 open? texts).flatMap (·.reports)) :
    ∃ marked, marked ≠ [] ∧ d.Marks w texts marked := by
  obtain ⟨r, read, mem⟩ := List.mem_flatMap.mp mem
  obtain ⟨i, at_line⟩ := List.mem_iff_getElem?.mp read
  obtain ⟨text, here, rfl⟩ := getElem?_readLines at_line
  obtain ⟨nested, trailing, split, nested_at, trailing_at⟩ := (readLine_at ⟨w, 1 + i⟩ _ text).reports
  rw [split] at mem
  rcases List.mem_append.mp mem with mem | mem
  · exact marks_of_nestedAt tab here nested_at d mem
  · exact marks_of_trailingAt tab here trailing_at d mem

theorem marks_of_unterminated {p : Position} (tab : 1 ≤ w)
    (opened : openAfter none (readLines w 1 none texts) = some p) :
    (unterminatedError p).Marks w texts ['/', '*'] := by
  rcases openAfter_readLines opened with before | ⟨i, text, here, front, back, rfl, rfl⟩
  · exact nomatch before
  · refine ⟨i, front, back, ?_, ?_, Text.length_le_width tab ['/', '*']⟩
    · rw [here, List.append_assoc]
      rfl
    · rw [Nat.add_comm i 1]
      rfl

end Source

end VhdlFrontEnd
