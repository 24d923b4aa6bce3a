import VhdlFrontEnd.Piece
import VhdlFrontEnd.Proofs.Mark
import VhdlFrontEnd.Proofs.Reading

/-!
# The pieces of a line, one at a time

`pieces_split` shows that cutting a line can be resumed after any piece, and `pieces_sound` that
every piece is what its sort says, given what follows it on the line.
-/

namespace VhdlFrontEnd

/-- What stands between lexemes, given what follows it on the line: blanks, or a comment that ends
where comments of its sort end. -/
inductive Gap : PieceSort → List Char → List Char → Prop where
  | blanks {text rest} : (∀ c ∈ text, Text.isBlank c) → Gap .blanks text rest
  | lineComment {body} : Gap .lineComment ('-' :: '-' :: body) []
  | blockComment {body rest} : ¬ ['*', '/'] <:+: body ++ ['*'] →
      Gap .blockComment ('/' :: '*' :: body ++ ['*', '/']) rest
  | openComment {body} : ¬ ['*', '/'] <:+: body → Gap .openComment ('/' :: '*' :: body) []

/-- A piece is borne out by its text and by what follows it: it is a gap, or a lexeme. -/
inductive Piece.Sound : Piece → List Char → Prop where
  | gap {sort text rest} : Gap sort text rest → Sound ⟨sort, text⟩ rest
  | lexeme {lexeme text rest} : (⟨lexeme, text, rest⟩ : Reading).Sound →
      Sound ⟨.lexeme lexeme, text⟩ rest

namespace Piece

/-- The texts of pieces, one after the other. -/
def texts (ps : List Piece) : List Char := (ps.map (·.text)).flatten

@[simp] theorem texts_nil : texts [] = [] := rfl

@[simp] theorem texts_cons (p : Piece) (ps : List Piece) : texts (p :: ps) = p.text ++ texts ps := rfl

@[simp] theorem texts_append (ps qs : List Piece) : texts (ps ++ qs) = texts ps ++ texts qs := by
  simp [texts]

theorem texts_pieces (previous? : Option TokenKind) (cs : List Char) :
    texts (pieces previous? cs) = cs :=
  flatten_pieces previous? cs

variable {previous? : Option TokenKind} {cs : List Char} {p : Piece} {ps qs : List Piece}

theorem pieces_nil : pieces previous? [] = [] := by rw [pieces]

theorem pieces_cons (c : Char) (rest : List Char) :
    pieces previous? (c :: rest) = (first previous? c rest).1 ::
      pieces (previousAfter previous? (first previous? c rest).1) (first previous? c rest).2 := by
  rw [pieces]

/-- The first piece of a text and the cutting of what follows it. -/
theorem pieces_eq_cons (h : pieces previous? cs = p :: ps) :
    ∃ c rest, cs = c :: rest ∧ first previous? c rest = (p, texts ps) ∧
      pieces (previousAfter previous? p) (texts ps) = ps := by
  cases cs with
  | nil => rw [pieces_nil] at h; exact nomatch h
  | cons c rest =>
    rw [pieces_cons] at h
    obtain ⟨rfl, tail⟩ := List.cons.inj h
    have rest_eq : (first previous? c rest).2 = texts ps := by rw [← tail, texts_pieces]
    exact ⟨c, rest, rfl, Prod.ext rfl rest_eq, rest_eq ▸ tail⟩

/-- Cutting can be resumed after any pieces, under the kind of the last token in them. -/
theorem pieces_split (h : pieces previous? cs = ps ++ qs) :
    pieces (ps.foldl previousAfter previous?) (texts qs) = qs := by
  induction ps generalizing previous? cs with
  | nil => rw [List.nil_append] at h; rw [← h, texts_pieces, List.foldl_nil]
  | cons p ps ih =>
    obtain ⟨_, _, -, -, tail⟩ := pieces_eq_cons h
    exact ih tail

theorem comment?_gap {rest : List Char} (h : comment? cs = some (p, rest)) :
    Gap p.sort p.text rest := by
  unfold comment? at h
  split at h
  · cases h; exact .lineComment
  · split at h
    · next closes =>
      cases h
      exact .blockComment (Source.front_of_splitMark? closes)
    · next opened =>
      cases h
      exact .openComment (Source.splitMark?_eq_none_iff.mp opened)
  · exact nomatch h

theorem comment?_eq_none_iff : comment? cs = none ↔ ¬ ['-', '-'] <+: cs ∧ ¬ ['/', '*'] <+: cs := by
  constructor
  · intro none_found
    constructor <;> intro starts <;> obtain ⟨rest, rfl⟩ := Source.exists_of_pair_prefix starts
    · exact nomatch none_found
    · rw [comment?] at none_found
      split at none_found <;> exact nomatch none_found
  · rintro ⟨dashes, opener⟩
    unfold comment?
    split
    · exact absurd ⟨_, rfl⟩ dashes
    · exact absurd ⟨_, rfl⟩ opener
    · rfl

/-- Where a lexeme is read no comment starts. -/
theorem no_comment {c : Char} {rest : List Char} (h : comment? (c :: rest) = none) :
    ¬ (c = '-' ∧ rest.head? = some '-') ∧ ¬ (c = '/' ∧ rest.head? = some '*') := by
  have none_starts := comment?_eq_none_iff.mp h
  rwa [Source.pair_prefix_cons, Source.pair_prefix_cons] at none_starts

/-- A text goes on with a gap or, where no comment starts, with a lexeme. -/
theorem first_cases (previous? : Option TokenKind) (c : Char) (rest : List Char) :
    Gap (first previous? c rest).1.sort (first previous? c rest).1.text (first previous? c rest).2 ∨
      (comment? (c :: rest) = none ∧ first previous? c rest =
        (⟨.lexeme (Lexeme.read previous? c rest).lexeme, (Lexeme.read previous? c rest).text⟩,
          (Lexeme.read previous? c rest).rest)) := by
  unfold first
  by_cases blank : Text.isBlank c
  · rw [if_pos blank]
    refine Or.inl (.blanks fun d mem => ?_)
    rcases List.mem_cons.mp mem with rfl | mem
    · exact blank
    · exact List.all_eq_true.mp List.all_takeWhile d mem
  · rw [if_neg blank]
    cases found : comment? (c :: rest) with
    | some f => exact Or.inl (comment?_gap found)
    | none => exact Or.inr ⟨rfl, rfl⟩

/-- A character that is no blank and starts no comment starts a lexeme. -/
theorem first_of_ink (previous? : Option TokenKind) {c : Char} (ink : ¬ Text.isBlank c) (dash : c ≠ '-')
    (slash : c ≠ '/') (rest : List Char) :
    first previous? c rest =
      (⟨.lexeme (Lexeme.read previous? c rest).lexeme, (Lexeme.read previous? c rest).text⟩,
        (Lexeme.read previous? c rest).rest) := by
  have none_starts : comment? (c :: rest) = none := by
    rw [comment?_eq_none_iff, Source.pair_prefix_cons, Source.pair_prefix_cons]
    exact ⟨fun starts => dash starts.1, fun starts => slash starts.1⟩
  rw [first, if_neg ink, none_starts]

theorem first_sound (previous? : Option TokenKind) (c : Char) (rest : List Char) :
    (first previous? c rest).1.Sound (first previous? c rest).2 := by
  rcases first_cases previous? c rest with gap | ⟨-, same⟩
  · exact .gap gap
  · rw [same]
    exact .lexeme (Lexeme.read_sound previous? c rest)

theorem pieces_sound (h : pieces previous? cs = ps ++ p :: qs) : p.Sound (texts qs) := by
  obtain ⟨c, rest, -, same, -⟩ := pieces_eq_cons (pieces_split h)
  have sound := first_sound (ps.foldl previousAfter previous?) c rest
  rwa [same] at sound

theorem ne_nil_of_pieces (h : pieces previous? cs = ps ++ p :: qs) : p.text ≠ [] :=
  pieces_ne_nil previous? cs p (by rw [h]; simp)

end Piece

end VhdlFrontEnd
