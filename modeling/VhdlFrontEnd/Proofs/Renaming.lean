import VhdlFrontEnd.Outline.Parse
import VhdlFrontEnd.Proofs.Parts

/-!
# Statements of renamed tokens

How tokens are read depends on their kinds only, and their spellings are kept as names.
`statements_map` shows that tokens which are moved, and whose spellings have some characters
replaced, are read as the same statements, moved and respelled with them.
-/

namespace VhdlFrontEnd.Outline

/-- The tokens are moved, and keep their kinds; in the new spelling their characters are replaced. -/
structure Renames (σ : Token → Token) (π : Position → Position) (φ : Char → Char)
    (spelling spelling' : Token → String) : Prop where
  kind : ∀ t, (σ t).kind = t.kind
  position : ∀ t, (σ t).position = π t.position
  spelling : ∀ t, spelling' (σ t) = (spelling t).map φ
  /-- The point between the parts of a name is not replaced. -/
  point : φ '.' = '.'

def movedUnit (π : Position → Position) (u : DesignUnit) : DesignUnit := { u with position := π u.position }

theorem movedUnit_id : movedUnit id = id := rfl

/-- The unit at another position, with other characters in its names. -/
def renamedUnit (π : Position → Position) (φ : Char → Char) (u : DesignUnit) : DesignUnit :=
  { u with
    name? := u.name?.map (·.map φ), of? := u.of?.map (·.map φ), names := u.names.map (·.map φ)
    position := π u.position }

theorem renamedUnit_id (π : Position → Position) : renamedUnit π id = movedUnit π := by
  funext u
  simp [renamedUnit, movedUnit]

def Statement.renamed (σ : Token → Token) (π : Position → Position) (φ : Char → Char) : Statement → Statement
  | unit u => .unit (renamedUnit π φ u)
  | malformed d => .malformed ⟨d.expected, d.rest.map σ⟩
  | unexpected t => .unexpected (σ t)
  | skipped => .skipped

/-- The result of a part with its value changed and the tokens that are left moved. -/
def carried {α β : Type} (σ : Token → Token) (f : α → β) :
    Except Deviation (α × List Token) → Except Deviation (β × List Token)
  | .ok (a, rest) => .ok (f a, rest.map σ)
  | .error e => .error ⟨e.expected, e.rest.map σ⟩

/-- On moved tokens the second part does what the first does on the tokens. -/
def Part.Carries {α β : Type} (σ : Token → Token) (f : α → β) (part : Part α) (part' : Part β) : Prop :=
  ∀ tokens, part' (tokens.map σ) = carried σ f (part tokens)

variable {σ : Token → Token} {π : Position → Position} {φ : Char → Char} {spelling spelling' : Token → String}

section Parts

variable {α β γ δ : Type} {f : α → β} {g : γ → δ} {part : Part α} {part' : Part β}

theorem Part.Carries.andThen {next : α → Part γ} {next' : β → Part δ} (first : part.Carries σ f part')
    (then_ : ∀ a, (next a).Carries σ g (next' (f a))) :
    (part.andThen next).Carries σ g (part'.andThen next') := by
  intro tokens
  rw [Part.andThen, Part.andThen, first tokens]
  cases part tokens with
  | error e => rfl
  | ok found => exact then_ found.1 found.2

theorem Part.Carries.map {u : α → γ} {v : β → δ} (carries : part.Carries σ f part')
    (values : ∀ a, v (f a) = g (u a)) : (part.map u).Carries σ g (part'.map v) := by
  intro tokens
  rw [Part.map, Part.map, carries tokens]
  cases part tokens with
  | error e => rfl
  | ok found => exact congrArg (fun b => Except.ok (b, found.2.map σ)) (values found.1)

end Parts

/-! ### Headers -/

section Statements

variable (renames : Renames σ π φ spelling spelling')

include renames

theorem token_carries (kind : TokenKind) : (token kind).Carries σ id (token kind) := by
  intro tokens
  cases tokens with
  | nil => rfl
  | cons t rest =>
    rw [List.map_cons, token, token, renames.kind]
    split <;> rfl

theorem identifier_carries : (identifier spelling).Carries σ (·.map φ) (identifier spelling') := by
  intro tokens
  cases tokens with
  | nil => rfl
  | cons t rest =>
    rw [List.map_cons, identifier, identifier, renames.kind, renames.spelling]
    split <;> rfl

theorem map_selected (name suffix : String) :
    (name ++ "." ++ suffix).map φ = name.map φ ++ "." ++ suffix.map φ := by
  rw [← String.toList_inj]
  simp [String.toList_map, renames.point]

theorem namesFrom_carries (selected : Bool) (name : String) :
    (namesFrom spelling selected name).Carries σ (·.map (·.map φ)) (namesFrom spelling' selected (name.map φ)) := by
  intro tokens
  fun_induction namesFrom spelling selected name tokens with
  | case9 name mark rest no_dot no_comma =>
    rw [← renames.kind mark] at no_dot no_comma
    exact namesFrom_other (name.map φ) (rest.map σ) no_dot no_comma
  | _ => simp_all [namesFrom, carried, renames.kind, renames.spelling, map_selected renames]

theorem contextItem_carries (kind : UnitKind) (selected : Bool) (p : Position) :
    (contextItem spelling kind selected p).Carries σ (renamedUnit π φ)
      (contextItem spelling' kind selected (π p)) :=
  ((identifier_carries renames).andThen fun name => namesFrom_carries renames selected name).andThen
    fun _ => (token_carries renames _).map fun _ => rfl

theorem named_carries (kind : UnitKind) (p : Position) :
    (named spelling kind p).Carries σ (renamedUnit π φ) (named spelling' kind (π p)) :=
  (identifier_carries renames).andThen fun _ => (token_carries renames _).map fun _ => rfl

theorem secondary_carries (kind : UnitKind) (p : Position) :
    (secondary spelling kind p).Carries σ (renamedUnit π φ) (secondary spelling' kind (π p)) :=
  (identifier_carries renames).andThen fun _ => (token_carries renames _).andThen fun _ =>
    (identifier_carries renames).andThen fun _ => (token_carries renames _).map fun _ => rfl

theorem context_carries (p : Position) :
    (context spelling p).Carries σ (renamedUnit π φ) (context spelling' (π p)) := by
  intro tokens
  match tokens with
  | [] => exact contextItem_carries renames _ _ p []
  | [name] => exact contextItem_carries renames _ _ p [name]
  | name :: is :: rest =>
    rw [List.map_cons, List.map_cons, context, context, renames.kind, renames.kind]
    split
    · rw [renames.spelling]
      rfl
    · exact contextItem_carries renames _ _ p (name :: is :: rest)

theorem package_carries (p : Position) :
    (package spelling p).Carries σ (renamedUnit π φ) (package spelling' (π p)) := by
  intro tokens
  cases tokens with
  | nil => exact named_carries renames _ p []
  | cons body rest =>
    rw [List.map_cons, package, package, renames.kind]
    split
    · exact named_carries renames _ p rest
    · exact named_carries renames _ p (body :: rest)

theorem header?_carries (kind : TokenKind) (p : Position) :
    (header? spelling kind p = none ∧ header? spelling' kind (π p) = none) ∨
      ∃ part part', header? spelling kind p = some part ∧ header? spelling' kind (π p) = some part' ∧
        part.Carries σ (renamedUnit π φ) part' := by
  unfold header?
  split
  · exact Or.inr ⟨_, _, rfl, rfl, contextItem_carries renames _ _ p⟩
  · exact Or.inr ⟨_, _, rfl, rfl, contextItem_carries renames _ _ p⟩
  · exact Or.inr ⟨_, _, rfl, rfl, context_carries renames p⟩
  · exact Or.inr ⟨_, _, rfl, rfl, named_carries renames _ p⟩
  · exact Or.inr ⟨_, _, rfl, rfl, secondary_carries renames _ p⟩
  · exact Or.inr ⟨_, _, rfl, rfl, secondary_carries renames _ p⟩
  · exact Or.inr ⟨_, _, rfl, rfl, package_carries renames p⟩
  · exact Or.inl ⟨rfl, rfl⟩

/-! ### Statements -/

theorem afterSemicolon_map (tokens : List Token) :
    afterSemicolon (tokens.map σ) = (afterSemicolon tokens).map σ := by
  rw [afterSemicolon, afterSemicolon, List.dropWhile_map, List.map_tail]
  simp only [Function.comp_def, renames.kind]

theorem statement_map (first : Token) (rest : List Token) :
    statement spelling' (σ first) (rest.map σ) =
      ((statement spelling first rest).1.renamed σ π φ, (statement spelling first rest).2.map σ) := by
  unfold statement
  rw [renames.kind, renames.position]
  rcases header?_carries renames first.kind first.position with
    ⟨other, other'⟩ | ⟨part, part', found, found', carries⟩
  · rw [other, other', ← List.map_cons, afterSemicolon_map renames]
    dsimp only
    split <;> rfl
  · rw [found, found']
    dsimp only
    rw [carries rest]
    cases part rest with
    | ok found => rfl
    | error e => exact congrArg (Prod.mk _) (afterSemicolon_map renames e.rest)

theorem statements_map (tokens : List Token) :
    statements spelling' (tokens.map σ) = (statements spelling tokens).map (·.renamed σ π φ) := by
  cases tokens with
  | nil => rw [List.map_nil, statements, statements, List.map_nil]
  | cons first rest =>
    have shorter := length_statement_lt spelling first rest
    rw [List.map_cons, statements, statements, statement_map renames, List.map_cons,
      statements_map (statement spelling first rest).2]
termination_by tokens.length
decreasing_by exact shorter

end Statements

theorem Statement.unit?_renamed (s : Statement) :
    (s.renamed σ π φ).unit? = s.unit?.map (renamedUnit π φ) := by
  cases s <;> rfl

/-! ### Reports -/

/-- The tokens of `s` are moved into `s'`, where they have the spellings that they have in `s` but for
the characters that are replaced. -/
structure Moves (σ : Token → Token) (π : Position → Position) (φ : Char → Char) (s s' : Source) : Prop where
  kind : ∀ t, (σ t).kind = t.kind
  position : ∀ t, (σ t).position = π t.position
  spelling : ∀ t, s'.spelling (σ t) = (s.spelling t).map φ
  point : φ '.' = '.'

def movedReport (π : Position → Position) (d : Diagnostic) : Diagnostic :=
  { d with span := ⟨π d.span.start, d.span.length⟩ }

theorem movedReport_id : movedReport id = id := rfl

namespace Moves

variable {s s' : Source} (moves : Moves σ π φ s s')

include moves

theorem renames : Renames σ π φ (spelled s) (spelled s') := by
  refine ⟨moves.kind, moves.position, fun t => ?_, moves.point⟩
  rw [spelled, moves.spelling, ← String.toList_inj]
  simp [String.toList_map, spelled]

theorem expectedReport (atEnd : Span) (expected : Expected) (rest : List Token) :
    Outline.expectedReport s' ⟨π atEnd.start, atEnd.length⟩ ⟨expected, rest.map σ⟩ =
      movedReport π (Outline.expectedReport s atEnd ⟨expected, rest⟩) := by
  cases rest with
  | nil => rfl
  | cons t rest =>
    rw [Outline.expectedReport, Outline.expectedReport, List.map_cons]
    dsimp only
    rw [moves.kind, moves.position, moves.spelling, List.length_map]
    rfl

/-- What is reported about a moved statement is the report about the statement, moved. -/
theorem report? (atEnd : Span) (found : Statement) :
    (found.renamed σ π φ).report? s' ⟨π atEnd.start, atEnd.length⟩ =
      (found.report? s atEnd).map (movedReport π) := by
  cases found with
  | unit u => rfl
  | malformed d => exact congrArg some (moves.expectedReport atEnd d.expected d.rest)
  | unexpected t =>
    rw [Statement.renamed, Statement.report?, Statement.report?, unexpectedReport, moves.kind, moves.position,
      moves.spelling, List.length_map]
    rfl
  | skipped => rfl

/-- The units and the reports of moved tokens are those of the tokens, moved; only units are respelled. -/
theorem units (tokens : List Token) :
    (statements (spelled s') (tokens.map σ)).filterMap (·.unit?) =
      ((statements (spelled s) tokens).filterMap (·.unit?)).map (renamedUnit π φ) := by
  rw [statements_map moves.renames, List.filterMap_map, List.map_filterMap]
  simp only [Function.comp_def, Statement.unit?_renamed]

theorem reports (atEnd : Span) (tokens : List Token) :
    (statements (spelled s') (tokens.map σ)).filterMap
        (·.report? s' ⟨π atEnd.start, atEnd.length⟩) =
      ((statements (spelled s) tokens).filterMap (·.report? s atEnd)).map (movedReport π) := by
  rw [statements_map moves.renames, List.filterMap_map, List.map_filterMap]
  simp only [Function.comp_def, moves.report?]

end Moves

end VhdlFrontEnd.Outline
