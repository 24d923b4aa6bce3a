import VhdlFrontEnd.Source.Load

/-!
# The role of the line that follows

A line is read under the comment that the line before it leaves open. `inComment_after_code` shows
what follows a line of code: a line inside a comment, or the end of one, if and only if an opener
is found on the line of code that nothing closes.
-/

namespace VhdlFrontEnd

/-- The line stands inside a block comment or closes one. -/
def Category.InComment (c : Category) : Prop := c = .blockCommentBody ∨ c = .blockCommentEnd

namespace Source

variable {place : LinePlace} {open? : Option Position} {text : List Char}

/-- A comment at the start of a line that closes on the line. -/
theorem readFresh_closed (place : LinePlace) {body inside rest : List Char}
    (start : text.dropWhile Text.isBlank = '/' :: '*' :: body)
    (closes : splitCloser? body = some (inside, rest)) :
    readFresh place text = ⟨⟨.lineComment, text⟩,
      (afterCloser place (text.takeWhile Text.isBlank ++ '/' :: '*' :: inside ++ ['*', '/']) rest).1,
      (afterCloser place (text.takeWhile Text.isBlank ++ '/' :: '*' :: inside ++ ['*', '/']) rest).2⟩ := by
  unfold readFresh
  simp only [start, closes]

theorem readFresh_unclosed (place : LinePlace) {body : List Char}
    (start : text.dropWhile Text.isBlank = '/' :: '*' :: body) (unclosed : splitCloser? body = none) :
    readFresh place text =
      ⟨⟨.blockCommentStart, text⟩, some (place.after (text.takeWhile Text.isBlank)), []⟩ := by
  unfold readFresh
  simp only [start, unclosed]

theorem readFresh_of_no_comment (place : LinePlace) (none_starts : ¬ ['/', '*'] <+: text.dropWhile Text.isBlank) :
    readFresh place text =
      if text.dropWhile Text.isBlank = [] then ⟨⟨.blank, text⟩, none, []⟩
      else if ['-', '-'] <+: text.dropWhile Text.isBlank then ⟨⟨.lineComment, text⟩, none, []⟩
      else ⟨⟨.code, text⟩, (unclosedOpener? text).map place.after, []⟩ := by
  unfold readFresh
  dsimp only
  split
  · next blank => rw [if_pos blank]
  · next rest found => rw [found, if_neg (List.cons_ne_nil _ _), if_pos ⟨rest, rfl⟩]
  · next found => exact absurd ⟨_, found.symm⟩ none_starts
  · next ink no_dashes _ =>
    rw [if_neg ink, if_neg]
    rintro ⟨rest, found⟩
    exact no_dashes rest found.symm

/-- A line before which no comment is open is none inside a comment; if it is code, then the search
for openers tells what is open after it. -/
theorem readFresh_cases (place : LinePlace) (text : List Char) :
    (¬ (readFresh place text).line.category.InComment ∧
        (readFresh place text).line.category ≠ .code) ∨
      readFresh place text = ⟨⟨.code, text⟩, (unclosedOpener? text).map place.after, []⟩ := by
  have other : ∀ c, c = Category.blank ∨ c = .lineComment ∨ c = .blockCommentStart →
      ¬ c.InComment ∧ c ≠ .code := by
    rintro c (rfl | rfl | rfl) <;> simp [Category.InComment]
  unfold readFresh
  dsimp only
  split
  · exact Or.inl (other _ (Or.inl rfl))
  · exact Or.inl (other _ (Or.inr (Or.inl rfl)))
  · split
    · exact Or.inl (other _ (Or.inr (Or.inl rfl)))
    · exact Or.inl (other _ (Or.inr (Or.inr rfl)))
  · exact Or.inr rfl

theorem readInside_inComment (place : LinePlace) (start : Position) (text : List Char) :
    (readInside place start text).line.category.InComment := by
  unfold readInside
  split
  · exact Or.inr rfl
  · exact Or.inl rfl

theorem inComment_readLine_iff : (readLine place open? text).line.category.InComment ↔ open? ≠ none := by
  unfold readLine
  cases open? with
  | none =>
    refine ⟨fun inside => ?_, fun h => absurd rfl h⟩
    rcases readFresh_cases place text with ⟨outside, -⟩ | fresh
    · exact absurd inside outside
    · dsimp only at inside
      rw [fresh] at inside
      rcases inside with h | h <;> exact nomatch h
  | some start => exact ⟨fun _ => (nomatch ·), fun _ => readInside_inComment place start text⟩

theorem open?_of_code (code : (readLine place open? text).line.category = .code) :
    (readLine place open? text).open? = (unclosedOpener? text).map place.after := by
  unfold readLine at code ⊢
  cases open? with
  | none =>
    rcases readFresh_cases place text with ⟨-, other⟩ | fresh
    · exact absurd code other
    · dsimp only
      rw [fresh]
  | some start =>
    rcases readInside_inComment place start text with h | h <;> exact nomatch h.symm.trans code

/-- A reading and the one after it, which is read under the comment that the first leaves open. -/
theorem readLine_of_readLines {w number i : Nat} {texts : List (List Char)} {r : LineReading}
    (h : (readLines w number open? texts)[i]? = some r) :
    ∃ place before? text, r = readLine place before? text ∧
      ∀ next, (readLines w number open? texts)[i + 1]? = some next →
        ∃ place text, next = readLine place r.open? text := by
  induction texts generalizing number open? i with
  | nil => exact nomatch h
  | cons text texts ih =>
    cases i with
    | zero =>
      cases h
      refine ⟨_, _, _, rfl, fun next follows => ?_⟩
      cases texts with
      | nil => exact nomatch follows
      | cons text' texts =>
        cases follows
        exact ⟨_, _, rfl⟩
    | succ i => exact ih h

theorem get?_ofText {settings : SourceSettings} {code : List Char} {loaded : Loaded}
    (load : ofText settings code = .ok loaded) (i : Nat) :
    loaded.source.lines.get? i =
      (readLines settings.tabWidth 1 none (Text.physicalLines code))[i]?.map (·.line) := by
  unfold ofText at load
  dsimp only at load
  split at load
  · exact nomatch load
  · cases load
    rw [ofLines, Arena.get?_eq, Arena.toList_ofList, List.getElem?_map]

theorem inComment_after_code {settings : SourceSettings} {code : List Char} {loaded : Loaded}
    {i : Nat} {line next : Line} (load : ofText settings code = .ok loaded)
    (here : loaded.source.lines.get? i = some line) (role : line.category = .code)
    (follows : loaded.source.lines.get? (i + 1) = some next) :
    next.category.InComment ↔ unclosedOpener? line.text ≠ none := by
  rw [get?_ofText load] at here follows
  obtain ⟨r, reading, rfl⟩ := Option.map_eq_some_iff.mp here
  obtain ⟨r', reading', rfl⟩ := Option.map_eq_some_iff.mp follows
  obtain ⟨place, before?, text, rfl, after⟩ := readLine_of_readLines reading
  obtain ⟨place', text', rfl⟩ := after r' reading'
  rw [inComment_readLine_iff, open?_of_code role, text_readLine, ne_eq, Option.map_eq_none_iff]

end Source

end VhdlFrontEnd
