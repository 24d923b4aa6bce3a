import VhdlFrontEnd.Proofs.PhysicalLines
import VhdlFrontEnd.Proofs.Roles
import VhdlFrontEnd.Proofs.Slices

/-!
# Lines by byte offsets

A line can be read by slices: offsets of marks on a part of it are carried over to the whole line, and each part is
cut out where it is needed. `readLineIn?_eq` shows that all slices are there and that the reading is the same, and
`ofTextIn?_eq` says so of all lines of a text.
-/

namespace VhdlFrontEnd.Source

open Text

/-! ### One line -/

section

/-- The text up to an offset; all of it if the offset is wrong. -/
def prefixAt (text : List Char) (offset : Nat) : List Char := (upTo? text offset).getD text

variable (place : LinePlace)

def nestedIn (region text : List Char) : List Diagnostic :=
  match openerAt? region with
  | some offset => [nestedWarning place (prefixAt text offset)]
  | none => []

def trailingIn? (text : List Char) (start stop : Nat) : Option (List Diagnostic) := do
  let region ← between? text start stop
  let skipped := byteLength region - byteLength (region.dropWhile isBlank)
  let tail := trimEnd (← behind? region skipped)
  if tail.isEmpty || ['-', '-'].isPrefixOf tail || ['/', '*'].isPrefixOf tail then return []
  else return [trailingWarning place (prefixAt text (start + skipped)) tail]

/-- The rest of a line from the offset behind a closer. -/
noncomputable def afterCloserIn? (text : List Char) (start : Nat) : Option (Option Position × List Diagnostic) := do
  let reopened? := (← openerFrom? (← behind? text start) 0).map (start + ·)
  let reports ← trailingIn? place text start (reopened?.getD (byteLength text))
  return (reopened?.map fun offset => place.after (prefixAt text offset), reports)

noncomputable def readFreshIn? (text : List Char) : Option LineReading := do
  let indent := byteLength text - byteLength (text.dropWhile isBlank)
  match ← behind? text indent with
  | [] => return ⟨⟨.blank, text⟩, none, []⟩
  | '-' :: '-' :: _ => return ⟨⟨.lineComment, text⟩, none, []⟩
  | '/' :: '*' :: body =>
    match closerAt? body with
    | some stop =>
      let (open?, reports) ← afterCloserIn? place text (indent + 2 + stop + 2)
      return ⟨⟨.lineComment, text⟩, open?, reports⟩
    | none => return ⟨⟨.blockCommentStart, text⟩, some (place.after (prefixAt text indent)), []⟩
  | _ =>
    let opener? ← openerFrom? text 0
    return ⟨⟨.code, text⟩, opener?.map fun offset => place.after (prefixAt text offset), []⟩

noncomputable def readInsideIn? (start : Position) (text : List Char) : Option LineReading := do
  match closerAt? text with
  | some stop =>
    let inside ← upTo? text stop
    let (open?, reports) ← afterCloserIn? place text (stop + 2)
    return ⟨⟨.blockCommentEnd, text⟩, open?, nestedIn place inside text ++ reports⟩
  | none => return ⟨⟨.blockCommentBody, text⟩, some start, nestedIn place text text⟩

/-- One line by its offsets. There is no result if a slice is not there. -/
noncomputable def readLineIn? (open? : Option Position) (text : List Char) : Option LineReading :=
  match open? with
  | none => readFreshIn? place text
  | some start => readInsideIn? place start text

end

variable {place : LinePlace} {before region rest after text : List Char}

@[simp] theorem prefixAt_append (before after : List Char) :
    prefixAt (before ++ after) (byteLength before) = before := by
  rw [prefixAt, upTo?_append, Option.getD_some]

/-- What is cut off in front is as long as what is gone. -/
theorem byteLength_sub_dropWhile (p : Char → Bool) (cs : List Char) :
    byteLength cs - byteLength (cs.dropWhile p) = byteLength (cs.takeWhile p) := by
  conv =>
    lhs
    rw [← List.takeWhile_append_dropWhile (p := p) (l := cs)]
  rw [byteLength_append]
  simp

theorem nestedIn_append (place : LinePlace) (region after : List Char) :
    nestedIn place region (region ++ after) = checkNested place region := by
  rw [nestedIn, openerAt?, checkNested]
  cases split : splitOpener? region with
  | none => rfl
  | some parts =>
    obtain ⟨front, back⟩ := parts
    obtain rfl := splitMark?_eq_some split
    rw [Option.map_some, List.append_assoc]
    exact congrArg (fun before => [nestedWarning place before]) (prefixAt_append front _)

theorem trailingIn?_append (place : LinePlace) (before region after : List Char) :
    trailingIn? place (before ++ (region ++ after)) (byteLength before) (byteLength before + byteLength region) =
      some (checkTrailing place before region) := by
  have whole : region.takeWhile isBlank ++ region.dropWhile isBlank = region := List.takeWhile_append_dropWhile
  have tail : behind? region (byteLength (region.takeWhile isBlank)) = some (region.dropWhile isBlank) := by
    have slice := behind?_append (region.takeWhile isBlank) (region.dropWhile isBlank)
    rwa [whole] at slice
  have front : prefixAt (before ++ (region ++ after)) (byteLength before + byteLength (region.takeWhile isBlank)) =
      before ++ region.takeWhile isBlank := by
    have slice := prefixAt_append (before ++ region.takeWhile isBlank) (region.dropWhile isBlank ++ after)
    rwa [byteLength_append, List.append_assoc, ← List.append_assoc (region.takeWhile isBlank), whole] at slice
  rw [trailingIn?, between?_append, Option.bind_eq_bind, Option.bind_some, byteLength_sub_dropWhile]
  dsimp only
  rw [tail, Option.bind_some, front, checkTrailing]
  split <;> rfl

theorem afterCloserIn?_append (place : LinePlace) (before rest : List Char) :
    afterCloserIn? place (before ++ rest) (byteLength before) = some (afterCloser place before rest) := by
  have opener : openerFrom? rest 0 = some ((unclosedOpener? rest).map byteLength) := openerFrom?_append [] rest
  rw [afterCloserIn?, behind?_append, Option.bind_eq_bind, Option.bind_some, opener, Option.bind_eq_bind,
    Option.bind_some, afterCloser]
  dsimp only
  cases found : unclosedOpener? rest with
  | none =>
    have trailing := trailingIn?_append place before rest []
    rw [List.append_nil, ← byteLength_append] at trailing
    rw [Option.map_none, Option.map_none, Option.getD_none, trailing]
    rfl
  | some front =>
    obtain ⟨body, rfl, -, -⟩ := unclosedOpener?_eq_some_iff.mp found
    have start := prefixAt_append (before ++ front) ('/' :: '*' :: body)
    rw [byteLength_append, List.append_assoc] at start
    rw [Option.map_some, Option.map_some, Option.getD_some, trailingIn?_append, Option.bind_eq_bind, Option.bind_some,
      Option.map_some, start]
    rfl

theorem readInsideIn?_eq (place : LinePlace) (start : Position) (text : List Char) :
    readInsideIn? place start text = some (readInside place start text) := by
  rw [readInsideIn?, closerAt?, readInside]
  cases closes : splitCloser? text with
  | none =>
    have nested := nestedIn_append place text []
    rw [List.append_nil] at nested
    rw [Option.map_none, nested]
    rfl
  | some parts =>
    obtain ⟨inside, rest⟩ := parts
    obtain rfl := splitMark?_eq_some closes
    have reopened := afterCloserIn?_append place (inside ++ ['*', '/']) rest
    rw [List.append_assoc, byteLength_append] at reopened
    rw [Option.map_some]
    dsimp only
    rw [upTo?_append, Option.bind_eq_bind, Option.bind_some, nestedIn_append]
    exact (congrArg (Option.bind · _) reopened).trans rfl

theorem map_prefixAt (place : LinePlace) (text : List Char) :
    (unclosedOpener? text).map ((fun offset => place.after (prefixAt text offset)) ∘ byteLength) =
      (unclosedOpener? text).map place.after := by
  refine Option.map_congr fun front found => ?_
  obtain ⟨body, rfl, -, -⟩ := unclosedOpener?_eq_some_iff.mp found
  exact congrArg place.after (prefixAt_append front _)

theorem readFreshIn?_eq (place : LinePlace) (text : List Char) :
    readFreshIn? place text = some (readFresh place text) := by
  have whole : text.takeWhile isBlank ++ text.dropWhile isBlank = text := List.takeWhile_append_dropWhile
  have slice := behind?_append (text.takeWhile isBlank) (text.dropWhile isBlank)
  have indent := prefixAt_append (text.takeWhile isBlank) (text.dropWhile isBlank)
  have opener : openerFrom? text 0 = some ((unclosedOpener? text).map byteLength) := openerFrom?_append [] text
  rw [whole] at slice indent
  rw [readFreshIn?, byteLength_sub_dropWhile]
  dsimp only
  rw [slice, indent, opener, Option.bind_eq_bind, Option.bind_some]
  split
  · next blank =>
    unfold readFresh
    rw [blank]
    rfl
  · next dashes =>
    unfold readFresh
    rw [dashes]
    rfl
  · next body start =>
    rw [closerAt?]
    cases closes : splitCloser? body with
    | none => rw [readFresh_unclosed place start closes]; rfl
    | some parts =>
      obtain ⟨inside, rest⟩ := parts
      have reopened := afterCloserIn?_append place
        (text.takeWhile isBlank ++ (['/', '*'] ++ inside) ++ ['*', '/']) rest
      have split : text.takeWhile isBlank ++ (['/', '*'] ++ inside) ++ ['*', '/'] ++ rest = text := by
        refine Eq.trans ?_ whole
        rw [start, splitMark?_eq_some closes]
        simp
      have opener : byteLength ['/', '*'] = 2 := rfl
      have closer : byteLength ['*', '/'] = 2 := rfl
      rw [split, byteLength_append, byteLength_append, byteLength_append, opener, closer, ← Nat.add_assoc] at reopened
      rw [readFresh_closed place start closes]
      exact (congrArg (Option.bind · _) reopened).trans rfl
  · next ink no_dashes no_opener =>
    have none_starts : ¬ ['/', '*'] <+: text.dropWhile isBlank := by
      intro starts
      obtain ⟨body, start⟩ := exists_of_pair_prefix starts
      exact no_opener body start
    have none_trails : ¬ ['-', '-'] <+: text.dropWhile isBlank := by
      intro starts
      obtain ⟨body, start⟩ := exists_of_pair_prefix starts
      exact no_dashes body start
    rw [readFresh_of_no_comment place none_starts, if_neg ink, if_neg none_trails, ← map_prefixAt, ← Option.map_map]
    rfl

/-- All slices of a line are there, and it is read as it is character by character. -/
theorem readLineIn?_eq (place : LinePlace) (open? : Option Position) (text : List Char) :
    readLineIn? place open? text = some (readLine place open? text) := by
  cases open? with
  | none => exact readFreshIn?_eq place text
  | some start => exact readInsideIn?_eq place start text

/-! ### All lines -/

/-- One line more, unless it is too long. -/
noncomputable def Intake.pushIn? (settings : SourceSettings) (r : Intake) (text : List Char) :
    ExceptT LoadFault Option Intake := do
  let number := r.lines.length + 1
  if settings.maxLineLength < byteLength text ∧ settings.maxLineLength < text.length then
    throw (.lineTooLong number text.length settings.maxLineLength)
  else
    let reading ← readLineIn? ⟨settings.tabWidth, number⟩ r.open? text
    return ⟨r.lines ++ [reading.line], reading.open?, r.reports ++ reading.reports⟩

/-- The source of a text, read by offsets. -/
noncomputable def ofTextIn? (settings : SourceSettings) (code : List Char) : Option (Except LoadFault Loaded) := do
  let intake ← ((physicalLines code).foldlM (Intake.pushIn? settings) .start).run
  return intake.map (Intake.finish settings)

theorem Intake.pushIn?_eq (settings : SourceSettings) (r : Intake) (text : List Char) :
    (r.pushIn? settings text).run = some (r.push settings text) := by
  rw [pushIn?, push]
  dsimp only
  split
  · rfl
  · rw [readLineIn?_eq]
    rfl

theorem Intake.foldlM_pushIn? (settings : SourceSettings) (r : Intake) (texts : List (List Char)) :
    (texts.foldlM (pushIn? settings) r).run = some (texts.foldlM (push settings) r) := by
  induction texts generalizing r with
  | nil => rfl
  | cons text texts ih =>
    rw [List.foldlM_cons, List.foldlM_cons, ExceptT.run_bind, pushIn?_eq, Option.bind_eq_bind, Option.bind_some]
    cases r.push settings text with
    | error fault => rfl
    | ok next => exact ih next

theorem ofTextIn?_eq (settings : SourceSettings) (code : List Char) :
    ofTextIn? settings code = some (ofText settings code) := by
  rw [ofTextIn?, Intake.foldlM_pushIn?, ofText_eq_foldlM]
  rfl

end VhdlFrontEnd.Source
