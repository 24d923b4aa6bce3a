import VhdlFrontEnd.Proofs.InStep
import VhdlFrontEnd.Proofs.Roles
import VhdlFrontEnd.Proofs.Tokens

/-!
# Where the roles of lines and the tokens agree

A line of code is searched for an opener that nothing closes, which gives the next lines their
roles, and it is scanned for tokens, which may leave a comment open. `agrees_iff` says when both
find the same opener. `openers_disagree` shows lines on which they do not.
-/

namespace VhdlFrontEnd

/-! ### One line -/

namespace Piece

open Source

variable {previous? : Option TokenKind} {cs front body : List Char} {p : Piece} {ps qs : List Piece}

/-- The piece that opens a comment is the last one. -/
theorem openComment_last (cut : pieces previous? cs = ps ++ p :: qs) (opens : p.sort = .openComment) :
    (∃ body, p.text = '/' :: '*' :: body ∧ ¬ ['*', '/'] <:+: body) ∧ qs = [] := by
  have sound := pieces_sound cut
  have ended : p.Sound (texts qs) →
      (∃ body, p.text = '/' :: '*' :: body ∧ ¬ ['*', '/'] <:+: body) ∧ texts qs = [] := by
    intro sound
    generalize texts qs = rest at sound
    cases sound with
    | gap gap =>
      cases gap with
      | openComment unclosed => exact ⟨⟨_, rfl, unclosed⟩, rfl⟩
      | _ => exact nomatch opens
    | lexeme _ => exact nomatch opens
  obtain ⟨text, nothing⟩ := ended sound
  refine ⟨text, ?_⟩
  cases qs with
  | nil => rfl
  | cons q qs =>
    have more : pieces previous? cs = (ps ++ [p]) ++ q :: qs := by rw [cut, List.append_assoc]; rfl
    rw [texts_cons, List.append_eq_nil_iff] at nothing
    exact absurd nothing.1 (ne_nil_of_pieces more)

/-- Where a piece starts at an opener that nothing closes, it is the comment. -/
theorem openComment_of_opener (cut : pieces previous? cs = ps ++ p :: qs)
    (text : texts (p :: qs) = '/' :: '*' :: body) (unclosed : ¬ ['*', '/'] <:+: body) :
    p.sort = .openComment := by
  obtain ⟨c, rest, same, found, -⟩ := pieces_eq_cons (pieces_split cut)
  rw [text] at same
  obtain ⟨rfl, rfl⟩ := List.cons.inj same
  have opens : splitCloser? body = none := splitMark?_eq_none_iff.mpr unclosed
  have first_open : first (ps.foldl previousAfter previous?) '/' ('*' :: body) =
      (⟨.openComment, '/' :: '*' :: body⟩, []) := by
    rw [first, if_neg (by decide), comment?, opens]
  rw [first_open] at found
  rw [← (Prod.mk.inj found).1]

/-- Past a piece that is plain and opens no comment the search goes on behind it. -/
theorem unclosedOpener?_cons (cut : pieces previous? cs = p :: ps) (plain : Plain p.text (texts ps))
    (closes : p.sort ≠ .openComment) :
    unclosedOpener? cs = (unclosedOpener? (texts ps)).map (p.text ++ ·) := by
  obtain ⟨c, rest, rfl, found, -⟩ := pieces_eq_cons cut
  have step := first_inStep previous? c rest
  have whole := first_append previous? c rest
  rw [found] at step whole
  rw [← whole]
  exact (step plain closes).unclosedOpener?

/-- Every piece is plain before the pieces that follow it. -/
def AllPlain (ps : List Piece) : Prop :=
  ∀ before p after, ps = before ++ p :: after → Plain p.text (texts after)

theorem AllPlain.tail (plain : AllPlain (p :: ps)) : AllPlain ps := fun before q after cut =>
  plain (p :: before) q after (congrArg (p :: ·) cut)

theorem unclosedOpener?_of_openComment (cut : pieces previous? cs = ps ++ p :: qs)
    (plain : AllPlain (ps ++ p :: qs)) (opens : p.sort = .openComment) :
    unclosedOpener? cs = some (texts ps) := by
  induction ps generalizing previous? cs with
  | nil =>
    obtain ⟨⟨body, text, unclosed⟩, rfl⟩ := openComment_last cut opens
    have whole := texts_pieces previous? cs
    rw [cut, List.nil_append, texts_cons, texts_nil, List.append_nil, text] at whole
    rw [← whole]
    exact unclosedOpener?_openComment unclosed
  | cons q ps ih =>
    have closes : q.sort ≠ .openComment := by
      intro same
      have first : pieces previous? cs = [] ++ q :: (ps ++ p :: qs) := cut
      exact absurd (openComment_last first same).2 (by simp)
    obtain ⟨_, _, -, -, tail⟩ := pieces_eq_cons cut
    rw [unclosedOpener?_cons cut (plain [] q _ rfl) closes, ih tail plain.tail]
    rfl

theorem unclosedOpener?_of_closed (cut : pieces previous? cs = ps) (plain : AllPlain ps)
    (closed : ∀ p ∈ ps, p.sort ≠ .openComment) : unclosedOpener? cs = none := by
  induction ps generalizing previous? cs with
  | nil =>
    have empty := texts_pieces previous? cs
    rw [cut] at empty
    rw [← empty, texts_nil, unclosedOpener?]
  | cons p ps ih =>
    obtain ⟨_, _, -, -, tail⟩ := pieces_eq_cons cut
    obtain ⟨first, others⟩ := List.forall_mem_cons.mp closed
    rw [unclosedOpener?_cons cut (plain [] p _ rfl) first, ih tail plain.tail others]
    rfl

end Piece

/-! ### A line of a source -/

namespace Source

/-- A piece of the scan starts at the offset on the line. -/
def Reaches (s : Source) (i offset : Nat) : Prop :=
  ∃ l ∈ s.scan, l.start.line = i ∧ l.start.offset = offset

/-- The scan enters a comment at the offset on the line, and the line ends inside it. -/
def LeavesOpen (s : Source) (i offset : Nat) : Prop :=
  ∃ l ∈ s.scan, l.piece.sort = .openComment ∧ l.start.line = i ∧ l.start.offset = offset

instance (s : Source) (i offset : Nat) : Decidable (s.LeavesOpen i offset) :=
  inferInstanceAs (Decidable
    (∃ l ∈ s.scan, l.piece.sort = .openComment ∧ l.start.line = i ∧ l.start.offset = offset))

/-- The search for openers and the scan find the same comment open at the end of the line. -/
def Agrees (s : Source) (i : Nat) (line : Line) : Prop :=
  ∀ offset, (unclosedOpener? line.text).map Text.byteLength = some offset ↔ s.LeavesOpen i offset

variable {s : Source} {i offset : Nat} {line : Line}

/-- The pieces of a line in the scan, each with the text before it. -/
theorem exists_scan_iff (here : s.lines.get? i = some line) (code : line.category.isCode)
    {P : Piece → Prop} :
    (∃ l ∈ s.scan, P l.piece ∧ l.start.line = i ∧ l.start.offset = offset) ↔
      ∃ before p after, Piece.pieces (s.kindBefore i) line.text = before ++ p :: after ∧ P p ∧
        Text.byteLength (Piece.texts before) = offset := by
  have onLine := scan_on_line here code
  constructor
  · rintro ⟨l, scanned, holds, same, rfl⟩
    have mem : l ∈ s.scan.filter (·.start.line == i) :=
      List.mem_filter.mpr ⟨scanned, beq_iff_eq.mpr same⟩
    rw [onLine] at mem
    obtain ⟨before, after, cut, starts, -⟩ := mem_locate mem
    refine ⟨before, l.piece, after, cut, holds, ?_⟩
    rw [starts, Place.after_lineStart]
  · rintro ⟨before, p, after, cut, holds, rfl⟩
    rw [cut, locate_append, locate] at onLine
    have mem := onLine ▸ List.mem_append_right _ List.mem_cons_self
    refine ⟨_, (List.mem_filter.mp mem).1, holds, rfl, ?_⟩
    rw [Place.after_lineStart]

/-- Each opener of the line that nothing closes is reached by the search and by the scan, or by
neither. -/
def ReachedAlike (s : Source) (i : Nat) (line : Line) : Prop :=
  ∀ front body, line.text = front ++ '/' :: '*' :: body → ¬ ['*', '/'] <:+: body →
    (Skipped front ('/' :: '*' :: body) ↔ s.Reaches i (Text.byteLength front))

/-- Every piece of the line is plain before what follows it. -/
def PlainLine (s : Source) (i : Nat) (line : Line) : Prop :=
  ∀ l ∈ s.scan, l.start.line = i → ∀ before after, line.text = before ++ l.piece.text ++ after →
    l.start.offset = Text.byteLength before → Plain l.piece.text after

theorem reaches_iff (here : s.lines.get? i = some line) (code : line.category.isCode) :
    s.Reaches i offset ↔ ∃ before p after,
      Piece.pieces (s.kindBefore i) line.text = before ++ p :: after ∧
        Text.byteLength (Piece.texts before) = offset := by
  simpa [Reaches] using exists_scan_iff here code (P := fun _ => True)

theorem leavesOpen_pieces_iff (here : s.lines.get? i = some line) (code : line.category.isCode) :
    s.LeavesOpen i offset ↔ ∃ before p after,
      Piece.pieces (s.kindBefore i) line.text = before ++ p :: after ∧ p.sort = .openComment ∧
        Text.byteLength (Piece.texts before) = offset :=
  exists_scan_iff here code (P := (·.sort = .openComment))

/-- The comment that the scan leaves open starts at an opener that nothing closes. -/
theorem leavesOpen_iff (here : s.lines.get? i = some line) (code : line.category.isCode) :
    s.LeavesOpen i offset ↔ ∃ front body, line.text = front ++ '/' :: '*' :: body ∧
      ¬ ['*', '/'] <:+: body ∧ Text.byteLength front = offset ∧ s.Reaches i offset := by
  have whole := Piece.texts_pieces (s.kindBefore i) line.text
  constructor
  · intro leaves
    obtain ⟨before, p, after, cut, opens, at_offset⟩ := (leavesOpen_pieces_iff here code).mp leaves
    obtain ⟨⟨body, text, unclosed⟩, rfl⟩ := Piece.openComment_last cut opens
    refine ⟨Piece.texts before, body, ?_, unclosed, at_offset,
      (reaches_iff here code).mpr ⟨before, p, [], cut, at_offset⟩⟩
    rw [← whole, cut, Piece.texts_append, Piece.texts_cons, Piece.texts_nil, List.append_nil, text]
  · rintro ⟨front, body, text, unclosed, rfl, reached⟩
    obtain ⟨before, p, after, cut, long⟩ := (reaches_iff here code).mp reached
    rw [cut, Piece.texts_append, text] at whole
    obtain ⟨-, rest⟩ := Text.append_inj_of_byteLength whole long
    have opens := Piece.openComment_of_opener cut rest unclosed
    exact (leavesOpen_pieces_iff here code).mpr ⟨before, p, after, cut, opens, long⟩

theorem agrees_iff_reachedAlike (here : s.lines.get? i = some line) (code : line.category.isCode) :
    s.Agrees i line ↔ s.ReachedAlike i line := by
  have found : ∀ offset, (unclosedOpener? line.text).map Text.byteLength = some offset ↔
      ∃ front body, line.text = front ++ '/' :: '*' :: body ∧ ¬ ['*', '/'] <:+: body ∧
        Text.byteLength front = offset ∧ Skipped front ('/' :: '*' :: body) := by
    intro offset
    rw [Option.map_eq_some_iff]
    constructor
    · rintro ⟨front, found, long⟩
      obtain ⟨body, text, unclosed, skipped⟩ := unclosedOpener?_eq_some_iff.mp found
      exact ⟨front, body, text, unclosed, long, skipped⟩
    · rintro ⟨front, body, text, unclosed, long, skipped⟩
      exact ⟨front, unclosedOpener?_eq_some_iff.mpr ⟨body, text, unclosed, skipped⟩, long⟩
  constructor
  · intro agrees front body text unclosed
    have same := (found _).symm.trans ((agrees (Text.byteLength front)).trans (leavesOpen_iff here code))
    constructor
    · intro skipped
      obtain ⟨_, _, -, -, -, reached⟩ := same.mp ⟨front, body, text, unclosed, rfl, skipped⟩
      exact reached
    · intro reached
      obtain ⟨front', body', text', -, long, skipped⟩ :=
        same.mpr ⟨front, body, text, unclosed, rfl, reached⟩
      obtain ⟨rfl, behind⟩ := Text.append_inj_of_byteLength (text'.symm.trans text) long
      rwa [← behind]
  · intro alike offset
    rw [found, leavesOpen_iff here code]
    constructor
    · rintro ⟨front, body, text, unclosed, rfl, skipped⟩
      exact ⟨front, body, text, unclosed, rfl, (alike front body text unclosed).mp skipped⟩
    · rintro ⟨front, body, text, unclosed, rfl, reached⟩
      exact ⟨front, body, text, unclosed, rfl, (alike front body text unclosed).mpr reached⟩

theorem agrees_of_plainLine (here : s.lines.get? i = some line) (code : line.category.isCode)
    (plain : s.PlainLine i line) : s.Agrees i line := by
  have all : Piece.AllPlain (Piece.pieces (s.kindBefore i) line.text) := by
    intro before p after cut
    obtain ⟨l, scanned, rfl, same, long⟩ :=
      (exists_scan_iff here code (P := (· = p))).mpr ⟨before, p, after, cut, rfl, rfl⟩
    refine plain l scanned same (Piece.texts before) (Piece.texts after) ?_ long
    rw [← Piece.texts_pieces (s.kindBefore i) line.text, cut]
    simp
  have opened : ∀ {offset}, s.LeavesOpen i offset →
      (unclosedOpener? line.text).map Text.byteLength = some offset := by
    intro offset leaves
    obtain ⟨before, p, after, cut, opens, long⟩ := (leavesOpen_pieces_iff here code).mp leaves
    rw [Piece.unclosedOpener?_of_openComment cut (cut ▸ all) opens, Option.map_some, long]
  refine fun offset => ⟨fun found => ?_, opened⟩
  by_cases opens : ∃ p ∈ Piece.pieces (s.kindBefore i) line.text, p.sort = .openComment
  · obtain ⟨p, mem, opens⟩ := opens
    obtain ⟨before, after, cut⟩ := List.append_of_mem mem
    have leaves : s.LeavesOpen i (Text.byteLength (Piece.texts before)) :=
      (leavesOpen_pieces_iff here code).mpr ⟨before, p, after, cut, opens, rfl⟩
    rw [opened leaves] at found
    rwa [← Option.some.inj found]
  · have closed : ∀ p ∈ Piece.pieces (s.kindBefore i) line.text, p.sort ≠ .openComment :=
      fun p mem same => opens ⟨p, mem, same⟩
    rw [Piece.unclosedOpener?_of_closed rfl all closed] at found
    exact nomatch found

theorem Agrees.none_iff (agrees : s.Agrees i line) :
    unclosedOpener? line.text = none ↔ ∀ offset, ¬ s.LeavesOpen i offset := by
  rw [← Option.map_eq_none_iff (f := Text.byteLength), Option.eq_none_iff_forall_ne_some]
  exact forall_congr' fun offset => not_congr (agrees offset)

end Source

/-- On a code line of a loaded source the search for openers and the scan agree if and only if
they reach the same openers, for which it is enough that its pieces are plain. Where they agree,
the line that follows stands in a comment just when the scan left one open. -/
theorem openers_agree_iff {settings : SourceSettings} {code : List Char} {loaded : Loaded}
    {i : Nat} {line : Line} (load : Source.ofText settings code = .ok loaded)
    (here : loaded.source.lines.get? i = some line) (role : line.category = .code) :
    (loaded.source.Agrees i line ↔ loaded.source.ReachedAlike i line) ∧
    (loaded.source.PlainLine i line → loaded.source.Agrees i line) ∧
    (loaded.source.Agrees i line →
      (Source.unclosedOpener? line.text = none ↔ ∀ offset, ¬ loaded.source.LeavesOpen i offset) ∧
      ∀ next, loaded.source.lines.get? (i + 1) = some next →
        (next.category.InComment ↔ ∃ offset, loaded.source.LeavesOpen i offset)) := by
  have isCode := Category.isCode_iff.mpr role
  refine ⟨Source.agrees_iff_reachedAlike here isCode, Source.agrees_of_plainLine here isCode,
    fun agrees => ⟨agrees.none_iff, fun next follows => ?_⟩⟩
  rw [Source.inComment_after_code load here role follows, ne_eq, agrees.none_iff]
  simp only [not_forall, not_not]

theorem openers_agree_before_comment :
    ∃ loaded line next, Source.ofText {} "x /* y\nz */".toList = .ok loaded ∧
      loaded.source.lines.get? 0 = some line ∧ line.category = .code ∧
      loaded.source.lines.get? 1 = some next ∧ loaded.source.Agrees 0 line ∧
      (next.category.InComment ↔ ∃ offset, loaded.source.LeavesOpen 0 offset) := by
  have loads : Source.ofText {} "x /* y\nz */".toList = .ok ⟨⟨.ofList
      [⟨.code, "x /* y".toList⟩, ⟨.blockCommentEnd, "z */".toList⟩], 1⟩, []⟩ := by decide +kernel
  have simple : ∀ l ∈ Source.scan ⟨.ofList
      [⟨.code, "x /* y".toList⟩, ⟨.blockCommentEnd, "z */".toList⟩], 1⟩,
      l.piece.text.head? ≠ some '\\' ∧ l.piece.text.getLast? ≠ some '\'' ∧
        l.piece.text ≠ ['*', '/'] := by decide +kernel
  obtain ⟨-, of_plain, follows⟩ := openers_agree_iff (i := 0) loads rfl rfl
  have agrees := of_plain fun l mem _ before after _ _ =>
    ⟨(simple l mem).1, fun ends => absurd ends (simple l mem).2.1,
      fun closer => absurd closer (simple l mem).2.2⟩
  exact ⟨_, _, _, loads, rfl, rfl, rfl, agrees, (follows agrees).2 _ rfl⟩

/-- The search does not see that an apostrophe after a name is a tick, nor that an opener stands in
an extended identifier. -/
theorem openers_disagree :
    (∃ source reports line next,
      Source.ofText {} "c := t'('\"') /* note\nmore */".toList = .ok ⟨source, reports⟩ ∧
        source.lines.get? 0 = some line ∧ line.category = .code ∧
        Source.unclosedOpener? line.text = none ∧ source.LeavesOpen 0 13 ∧
        source.lines.get? 1 = some next ∧ next.category = .code) ∧
    (∃ source reports line next,
      Source.ofText {} "x <= \\a/*b\\;\nmore".toList = .ok ⟨source, reports⟩ ∧
        source.lines.get? 0 = some line ∧ line.category = .code ∧
        Source.unclosedOpener? line.text = some "x <= \\a".toList ∧
        (∀ l ∈ source.scan, l.piece.sort ≠ .openComment) ∧
        source.lines.get? 1 = some next ∧ next.category = .blockCommentBody) := by
  constructor
  · exact ⟨⟨.ofList [⟨.code, "c := t'('\"') /* note".toList⟩, ⟨.code, "more */".toList⟩], 1⟩, [],
      _, _, by decide +kernel, rfl, rfl, by decide +kernel, by decide +kernel, rfl, rfl⟩
  · exact ⟨⟨.ofList [⟨.code, "x <= \\a/*b\\;".toList⟩, ⟨.blockCommentBody, "more".toList⟩], 1⟩,
      [Source.unterminatedError ⟨1, 8⟩], _, _, by decide +kernel, rfl, rfl, by decide +kernel,
      by decide +kernel, rfl, rfl⟩
end VhdlFrontEnd
