import VhdlFrontEnd.Outline.Header

/-!
# Statements

A statement is a header, which is recorded, or anything else up to the next semicolon. A malformed
header is left at the next semicolon too. Main statement: every statement takes at least one token.
-/

namespace VhdlFrontEnd.Outline

/-- What a statement gives to the outline. -/
inductive Statement
  | unit (unit : DesignUnit)
  /-- Something else was expected before the tokens `rest`. -/
  | malformed (deviation : Deviation)
  /-- The token cannot start a statement. -/
  | unexpected (token : Token)
  | skipped
deriving Repr, Inhabited

/-- The tokens after the next semicolon. -/
def afterSemicolon (tokens : List Token) : List Token :=
  (tokens.dropWhile (·.kind ≠ .symbol .semicolon)).tail

/-- A closer can start no statement. -/
def isStrayCloser : TokenKind → Bool
  | .symbol .rightParen | .symbol .rightBracket | .symbol .blockCommentEnd => true
  | _ => false

/-- The statement that starts with `first`, and the tokens of the next ones. -/
def statement (spelling : Token → String) (first : Token) (rest : List Token) :
    Statement × List Token :=
  match header? spelling first.kind first.position with
  | some header =>
    match header rest with
    | .ok (unit, rest) => (.unit unit, rest)
    | .error deviation => (.malformed deviation, afterSemicolon deviation.rest)
  | none =>
    if isStrayCloser first.kind then (.unexpected first, afterSemicolon (first :: rest))
    else (.skipped, afterSemicolon (first :: rest))

/-- The part gives back no more tokens than it got. -/
def Part.Shrinks {α : Type} (part : Part α) : Prop :=
  ∀ tokens, (∀ a rest, part tokens = .ok (a, rest) → rest.length ≤ tokens.length) ∧
    ∀ e, part tokens = .error e → e.rest.length ≤ tokens.length

theorem Part.Shrinks.andThen {α β : Type} {first : Part α} {second : α → Part β}
    (hf : first.Shrinks) (hs : ∀ a, (second a).Shrinks) : (first.andThen second).Shrinks := by
  intro tokens
  unfold Part.andThen
  cases h : first tokens with
  | error e => exact ⟨nofun, fun _ he => by cases he; exact (hf tokens).2 e h⟩
  | ok ar =>
    obtain ⟨a, rest⟩ := ar
    have hr := (hf tokens).1 a rest h
    exact ⟨fun b r hb => Nat.le_trans ((hs a rest).1 b r hb) hr,
      fun e he => Nat.le_trans ((hs a rest).2 e he) hr⟩

theorem Part.Shrinks.map {α β : Type} {part : Part α} (f : α → β) (h : part.Shrinks) :
    (part.map f).Shrinks := by
  intro tokens
  unfold Part.map
  cases hp : part tokens with
  | error e => exact ⟨nofun, fun _ he => by cases he; exact (h tokens).2 e hp⟩
  | ok ar =>
    obtain ⟨a, rest⟩ := ar
    exact ⟨fun b r hb => by cases hb; exact (h tokens).1 a rest hp, nofun⟩

theorem token_shrinks (kind : TokenKind) : (token kind).Shrinks := by
  intro tokens
  cases tokens with
  | nil => exact ⟨nofun, fun _ he => by cases he; exact Nat.le_refl _⟩
  | cons t rest =>
    by_cases h : t.kind = kind <;> simp [token, h]

theorem identifier_shrinks (spelling : Token → String) : (identifier spelling).Shrinks := by
  intro tokens
  cases tokens with
  | nil => exact ⟨nofun, fun _ he => by cases he; exact Nat.le_refl _⟩
  | cons t rest =>
    by_cases h : t.kind = .identifier <;> simp [identifier, h]

theorem namesFrom_shrinks (spelling : Token → String) (selected : Bool) (name : String) :
    (namesFrom spelling selected name).Shrinks := by
  intro tokens
  fun_induction namesFrom spelling selected name tokens with
  | case1 => exact ⟨fun _ _ h => by cases h; exact Nat.le_refl _, nofun⟩
  | case2 => exact ⟨nofun, fun _ he => by cases he; simp⟩
  | case3 _ _ _ _ _ _ ih =>
    exact ⟨fun a r h => by have := ih.1 a r h; simp; omega,
      fun e h => by have := ih.2 e h; simp; omega⟩
  | case4 => exact ⟨nofun, fun _ he => by cases he; simp⟩
  | case5 => exact ⟨nofun, fun _ he => by cases he; simp⟩
  | case6 _ _ _ _ _ _ _ names rest h ih =>
    exact ⟨fun _ _ hk => by cases hk; have := ih.1 names rest h; simp; omega, nofun⟩
  | case7 _ _ _ _ _ _ _ e h ih =>
    exact ⟨nofun, fun _ hk => by cases hk; have := ih.2 e h; simp; omega⟩
  | case8 => exact ⟨nofun, fun _ he => by cases he; simp⟩
  | case9 => exact ⟨fun _ _ h => by cases h; exact Nat.le_refl _, nofun⟩

theorem contextItem_shrinks (spelling : Token → String) (kind : UnitKind) (selected : Bool)
    (position : Position) : (contextItem spelling kind selected position).Shrinks :=
  ((identifier_shrinks spelling).andThen fun _ => namesFrom_shrinks spelling selected _).andThen
    fun _ => (token_shrinks _).map _

theorem named_shrinks (spelling : Token → String) (kind : UnitKind) (position : Position) :
    (named spelling kind position).Shrinks :=
  (identifier_shrinks spelling).andThen fun _ => (token_shrinks _).map _

theorem secondary_shrinks (spelling : Token → String) (kind : UnitKind) (position : Position) :
    (secondary spelling kind position).Shrinks :=
  (identifier_shrinks spelling).andThen fun _ => (token_shrinks _).andThen fun _ =>
    (identifier_shrinks spelling).andThen fun _ => (token_shrinks _).map _

theorem context_shrinks (spelling : Token → String) (position : Position) :
    (context spelling position).Shrinks := by
  intro tokens
  unfold context
  split
  · split
    · exact ⟨fun _ _ h => by cases h; simp; omega, nofun⟩
    · exact contextItem_shrinks spelling _ _ _ _
  · exact contextItem_shrinks spelling _ _ _ _

theorem package_shrinks (spelling : Token → String) (position : Position) :
    (package spelling position).Shrinks := by
  intro tokens
  unfold package
  split
  · next body rest =>
    split
    · have h := named_shrinks spelling .packageBody position rest
      exact ⟨fun a r hr => by have := h.1 a r hr; simp; omega,
        fun e he => by have := h.2 e he; simp; omega⟩
    · exact named_shrinks spelling _ _ _
  · exact named_shrinks spelling _ _ _

theorem header?_shrinks {spelling : Token → String} {kind : TokenKind} {position : Position}
    {header : Part DesignUnit} (h : header? spelling kind position = some header) :
    header.Shrinks := by
  unfold header? at h
  split at h
  all_goals cases h
  · exact contextItem_shrinks spelling _ _ _
  · exact contextItem_shrinks spelling _ _ _
  · exact context_shrinks spelling _
  · exact named_shrinks spelling _ _
  · exact secondary_shrinks spelling _ _
  · exact secondary_shrinks spelling _ _
  · exact package_shrinks spelling _

theorem length_afterSemicolon_le (tokens : List Token) :
    (afterSemicolon tokens).length ≤ tokens.length := by
  have := (List.dropWhile_suffix (fun t : Token => decide (t.kind ≠ .symbol .semicolon))
    (l := tokens)).length_le
  unfold afterSemicolon
  rw [List.length_tail]
  omega

theorem length_afterSemicolon_lt (t : Token) (tokens : List Token) :
    (afterSemicolon (t :: tokens)).length < (t :: tokens).length := by
  have := (List.dropWhile_suffix (fun t : Token => decide (t.kind ≠ .symbol .semicolon))
    (l := t :: tokens)).length_le
  unfold afterSemicolon
  rw [List.length_tail, List.length_cons]
  rw [List.length_cons] at this
  omega

/-- Every statement takes at least the token that it starts with. -/
theorem length_statement_lt (spelling : Token → String) (first : Token) (rest : List Token) :
    (statement spelling first rest).2.length < (first :: rest).length := by
  unfold statement
  split
  · next header hh =>
    have hs := header?_shrinks hh rest
    split
    · next unit after h =>
      exact Nat.lt_succ_of_le (hs.1 unit after h)
    · next e h =>
      exact Nat.lt_succ_of_le (Nat.le_trans (length_afterSemicolon_le _) (hs.2 e h))
  · split
    · exact length_afterSemicolon_lt _ _
    · exact length_afterSemicolon_lt _ _

end VhdlFrontEnd.Outline
