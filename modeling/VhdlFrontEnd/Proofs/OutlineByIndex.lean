import VhdlFrontEnd.Proofs.Loop
import VhdlFrontEnd.Proofs.OutlineReading

/-!
# The outline by index

A reader keeps the index that it has reached in a list of tokens, and the reports so far. Its routines are loops and
calls that do not say why they end: one that does not end has no result. `header?_follows` shows that each routine for
a header takes the tokens of its part, and gives what the part gives or reports where it deviates.
-/

namespace VhdlFrontEnd.Outline

structure Reader where
  index : Nat
  reports : List Diagnostic

/-- What goes on from a reader, to a value or to a report that was made instead. There is no result if it does not
end. -/
abbrev Routine (α : Type) : Type := ExceptT Unit (StateT Reader Option) α

namespace Routine

variable {α σ : Type}

def run? (m : Routine α) (r : Reader) : Option (Except Unit α × Reader) := (ExceptT.run m).run r

/-- Where a turn leads: to the end of the loop, also by a report, or to the next turn. -/
def leads : Except Unit (α ⊕ σ) × Reader → (Except Unit α × Reader) ⊕ (σ × Reader)
  | (.ok (.inl a), r) => .inl (.ok a, r)
  | (.ok (.inr s), r) => .inr (s, r)
  | (.error e, r) => .inl (.error e, r)

/-- A loop of routines; a report in a turn ends it. -/
noncomputable def loop (body : σ → Routine (α ⊕ σ)) (s : σ) : Routine α :=
  ExceptT.mk fun r => loop? (fun (s, r) => ((body s).run? r).map leads) (s, r)

end Routine

/-! ### What stands at an index -/

section

variable (source : Source) (tokens : List Token)

/-- The kind at an index; behind the last token that is the end of the file. -/
def kindAt (index : Nat) : TokenKind := (tokens[index]?.map (·.kind)).getD .eof

/-- The position at an index; behind the last token that is where the last one stands. -/
def positionAt (index : Nat) : Position := ((tokens[index]?.or tokens.getLast?).map (·.position)).getD .start

def spanAt (index : Nat) : Span :=
  match tokens[index]? with
  | some t => tokenSpan source t
  | none => .point (positionAt tokens index)

def spellingAt (index : Nat) : String := (tokens[index]?.map (spelled source)).getD ""

/-! ### Routines -/

namespace Routine

/-- One token on, but not past the end of the file. -/
def advance : Routine Unit :=
  modify fun r => if kindAt tokens r.index = .eof then r else { r with index := r.index + 1 }

def report (d : Diagnostic) : Routine Unit := modify fun r => { r with reports := r.reports ++ [d] }

/-- Past the current token if it is of this kind. -/
def pass (kind : TokenKind) : Routine Bool := do
  if kindAt tokens (← get).index = kind then
    advance tokens
    return true
  else return false

/-- The report that something else was expected here. -/
def refuse {α : Type} (expected : Expected) : Routine α := do
  let index := (← get).index
  report (missingReport expected (kindAt tokens index) (spanAt source tokens index))
  throw ()

def expect (kind : TokenKind) : Routine Unit := do
  if ← pass tokens kind then return () else refuse source tokens (.token kind)

def name : Routine String := do
  let index := (← get).index
  if kindAt tokens index = .identifier then
    advance tokens
    return spellingAt source tokens index
  else refuse source tokens .identifier

def nextSuffix (name : String) : Routine (String ⊕ String) := do
  if ← pass tokens (.symbol .dot) then
    let index := (← get).index
    if isSuffix (kindAt tokens index) then
      advance tokens
      return .inr (name ++ "." ++ spellingAt source tokens index)
    else refuse source tokens .suffix
  else return .inl name

/-- A name with the suffixes that follow it. -/
noncomputable def suffixes : String → Routine String := loop (nextSuffix source tokens)

/-- The rest of a name; only a selected name has suffixes. -/
noncomputable def nameRest (selected : Bool) (first : String) : Routine String :=
  if selected then suffixes source tokens first else return first

noncomputable def nextName (selected : Bool) (names : List String) : Routine (List String ⊕ List String) := do
  let names := names ++ [← nameRest source tokens selected (← name source tokens)]
  if ← pass tokens (.symbol .comma) then return .inr names else return .inl names

/-- The names of a list, behind those already read. -/
noncomputable def nameList (selected : Bool) : List String → Routine (List String) :=
  loop (nextName source tokens selected)

noncomputable def contextItem (kind : UnitKind) (selected : Bool) (position : Position) : Routine DesignUnit := do
  let names ← nameList source tokens selected []
  expect source tokens (.symbol .semicolon)
  return { kind, names, position }

def named (kind : UnitKind) (position : Position) : Routine DesignUnit := do
  let name ← name source tokens
  expect source tokens (.keyword .is)
  return { kind, name? := some name, position }

def secondary (kind : UnitKind) (position : Position) : Routine DesignUnit := do
  let name ← name source tokens
  expect source tokens (.keyword .of)
  let of ← Routine.name source tokens
  expect source tokens (.keyword .is)
  return { kind, name? := some name, of? := some of, position }

noncomputable def context (position : Position) : Routine DesignUnit := do
  let index := (← get).index
  if kindAt tokens index = .identifier ∧ kindAt tokens (index + 1) = .keyword .is then
    let name ← name source tokens
    advance tokens
    return { kind := .context, name? := some name, position }
  else contextItem source tokens .contextReference true position

def package (position : Position) : Routine DesignUnit := do
  let kind := if ← pass tokens (.keyword .body) then UnitKind.packageBody else .package
  named source tokens kind position

/-- The header behind a reserved word. -/
noncomputable def header? (kind : TokenKind) (position : Position) : Option (Routine DesignUnit) :=
  match kind with
  | .keyword .library => some (contextItem source tokens .library false position)
  | .keyword .use => some (contextItem source tokens .use true position)
  | .keyword .context => some (context source tokens position)
  | .keyword .entity => some (named source tokens .entity position)
  | .keyword .architecture => some (secondary source tokens .architecture position)
  | .keyword .configuration => some (secondary source tokens .configuration position)
  | .keyword .package => some (package source tokens position)
  | _ => none

def skipNext : Routine (Unit ⊕ Unit) := do
  let kind := kindAt tokens (← get).index
  if kind = .eof then return .inl ()
  else
    advance tokens
    if kind = .symbol .semicolon then return .inl () else return .inr ()

/-- Past the next semicolon, or to the end of the file. -/
noncomputable def skip : Routine Unit := loop (fun _ => skipNext tokens) ()

/-- A statement gives a unit, or nothing if it is passed over, or it stops with a report. -/
noncomputable def statement : Routine (Option DesignUnit) := do
  let index := (← get).index
  let kind := kindAt tokens index
  match header? source tokens kind (positionAt tokens index) with
  | some header =>
    advance tokens
    return some (← header)
  | none =>
    if isStrayCloser kind then
      report (.error .unexpectedToken (spanAt source tokens index) ("unexpected " ++ kind.render))
      throw ()
    else
      skip tokens
      return none

/-- A statement, and what follows it up to a semicolon if it stopped with a report. -/
noncomputable def turn : Routine (Option DesignUnit) :=
  tryCatch (statement source tokens) fun _ => do
    skip tokens
    return none

noncomputable def nextUnit (units : List DesignUnit) : Routine (List DesignUnit ⊕ List DesignUnit) := do
  if kindAt tokens (← get).index = .eof then return .inl units
  else return .inr (units ++ (← turn source tokens).toList)

/-- The units of all statements, behind those already read. -/
noncomputable def outline : List DesignUnit → Routine (List DesignUnit) := loop (nextUnit source tokens)

end Routine

end

/-! ### What a routine comes to -/

namespace Routine

variable {α β σ : Type} {r next : Reader}

@[simp] theorem run?_pure (a : α) (r : Reader) : (pure a : Routine α).run? r = some (.ok a, r) := rfl

@[simp] theorem run?_get (r : Reader) : (get : Routine Reader).run? r = some (.ok r, r) := rfl

theorem run?_bind (m : Routine α) (k : α → Routine β) (r : Reader) : (m >>= k).run? r =
    (m.run? r).bind fun (result, next) =>
      match result with
      | .ok a => (k a).run? next
      | .error e => some (.error e, next) := by
  show (m r).bind _ = (m r).bind _
  refine congrArg _ (funext fun (result, next) => ?_)
  cases result <;> rfl

theorem run?_bind_ok {m : Routine α} {a : α} (gives : m.run? r = some (.ok a, next)) (k : α → Routine β) :
    (m >>= k).run? r = (k a).run? next := by
  rw [run?_bind, gives, Option.bind_some]

theorem run?_bind_error {m : Routine α} (stops : m.run? r = some (.error (), next)) (k : α → Routine β) :
    (m >>= k).run? r = some (.error (), next) := by
  rw [run?_bind, stops, Option.bind_some]

@[simp] theorem run?_get_bind (k : Reader → Routine β) (r : Reader) :
    ((get : Routine Reader) >>= k).run? r = (k r).run? r := run?_bind_ok (run?_get r) k

/-- A loop is its first turn, and the loop from where that leads. -/
theorem loop_eq (body : σ → Routine (α ⊕ σ)) (s : σ) : loop body s = body s >>= Sum.elim pure (loop body) := by
  funext r
  show loop? _ (s, r) = (body s >>= _).run? r
  rw [loop?_eq, run?_bind, Option.bind_map]
  refine congrArg _ (funext fun (result, next) => ?_)
  rcases result with _ | _ | _ <;> rfl

section

variable {body : σ → Routine (α ⊕ σ)} {s t : σ} {a : α}

theorem run?_loop_end (ends : (body s).run? r = some (.ok (.inl a), next)) :
    (loop body s).run? r = some (.ok a, next) := by
  rw [loop_eq, run?_bind_ok ends]
  rfl

theorem run?_loop_next (goes_on : (body s).run? r = some (.ok (.inr t), next)) :
    (loop body s).run? r = (loop body t).run? next := by
  rw [loop_eq, run?_bind_ok goes_on]
  rfl

theorem run?_loop_error (stops : (body s).run? r = some (.error (), next)) :
    (loop body s).run? r = some (.error (), next) := by
  rw [loop_eq, run?_bind_error stops]

end

theorem run?_tryCatch (m : Routine α) (k : Unit → Routine α) (r : Reader) : (tryCatch m k).run? r =
    (m.run? r).bind fun (result, next) =>
      match result with
      | .ok a => some (.ok a, next)
      | .error e => (k e).run? next := by
  show (m r).bind _ = (m r).bind _
  refine congrArg _ (funext fun (result, next) => ?_)
  cases result <;> rfl

end Routine

/-! ### Behind the tokens that were read -/

/-- A reader behind the tokens `front`. -/
def Reader.behind (front : List Token) (reports : List Diagnostic) : Reader := ⟨front.length, reports⟩

variable {source : Source} {tokens front back rest used : List Token} {t : Token} {reports : List Diagnostic}

@[simp] theorem index_behind : (Reader.behind front reports).index = front.length := rfl

theorem getElem?_behind (here : upToEof tokens = front ++ t :: rest) : tokens[front.length]? = some t := by
  obtain ⟨after, rfl, same, -⟩ := exists_of_upToEof_eq_append here
  have first : t ∈ after.head? := mem_head?_of_upToEof (by rw [same]; rfl)
  rw [List.getElem?_append_right (Nat.le_refl _), Nat.sub_self, ← List.head?_eq_getElem?]
  exact first

theorem ne_eof_of_upToEof (here : upToEof tokens = front ++ t :: rest) : t.kind ≠ .eof := by
  have mem : t ∈ upToEof tokens := here ▸ List.mem_append_right front List.mem_cons_self
  exact of_decide_eq_true (List.all_eq_true.mp List.all_takeWhile t mem)

theorem kindAt_behind (here : upToEof tokens = front ++ back) :
    kindAt tokens front.length = (back.head?.map (·.kind)).getD .eof := by
  cases back with
  | cons t rest =>
    rw [kindAt, getElem?_behind here]
    rfl
  | nil =>
    obtain ⟨after, rfl, none_left, -⟩ := exists_of_upToEof_eq_append here
    rw [kindAt, List.getElem?_append_right (Nat.le_refl _), Nat.sub_self]
    cases after with
    | nil => rfl
    | cons t after =>
      by_cases eof : t.kind = .eof
      · exact eof
      · rw [upToEof_cons after eof] at none_left
        exact nomatch none_left

theorem kindAt_ne_eof (here : upToEof tokens = front ++ t :: rest) : kindAt tokens front.length ≠ .eof := by
  rw [kindAt_behind here]
  exact ne_eof_of_upToEof here

/-- What holds of the next token, and of the end of the file, holds of the kind that stands there. -/
theorem of_kindAt (p : TokenKind → Prop) (here : upToEof tokens = front ++ back) (at_eof : p .eof)
    (next : ∀ t ∈ back.head?, p t.kind) : p (kindAt tokens front.length) := by
  rw [kindAt_behind here]
  cases back with
  | nil => exact at_eof
  | cons t rest => exact next t rfl

theorem head?_cases (p : Token → Prop) (ts : List Token) :
    (∃ t rest, ts = t :: rest ∧ p t) ∨ ∀ t ∈ ts.head?, ¬ p t := by
  cases ts with
  | nil => exact Or.inr nofun
  | cons t rest =>
    by_cases first : p t
    · exact Or.inl ⟨t, rest, rfl, first⟩
    · exact Or.inr fun t' same => Option.some.inj same ▸ first

/-- A report that something else was expected is the one for the tokens that are left. -/
theorem missingReport_behind (here : upToEof tokens = front ++ back) (expected : Expected) :
    missingReport expected (kindAt tokens front.length) (spanAt source tokens front.length) =
      expectedReport source (endSpan source tokens) ⟨expected, back⟩ := by
  obtain ⟨after, rfl, rfl, clear⟩ := exists_of_upToEof_eq_append here
  cases after with
  | cons t after =>
    have found : (front ++ t :: after)[front.length]? = some t := by simp
    rw [expectedReport_found t after expected clear, kindAt, spanAt, found]
    rfl
  | nil =>
    rw [List.append_nil, upToEof_nil, kindAt, spanAt, positionAt, List.getElem?_eq_none (Nat.le_refl _)]
    rcases List.eq_nil_or_concat front with rfl | ⟨before, last, rfl⟩
    · rfl
    · rw [List.concat_eq_append] at clear ⊢
      obtain ⟨clear, stands⟩ := List.forall_mem_append.mp clear
      rw [expectedReport_last expected clear (stands last (List.mem_singleton_self last)), Option.none_or,
        List.getLast?_concat]
      rfl

namespace Routine

theorem run?_advance (reports : List Diagnostic) (here : upToEof tokens = front ++ t :: rest) :
    (advance tokens).run? (.behind front reports) = some (.ok (), .behind (front ++ [t]) reports) := by
  show some (Except.ok (), if kindAt tokens front.length = .eof then _ else _) = _
  rw [if_neg (kindAt_ne_eof here), Reader.behind, Reader.behind, List.length_append]
  rfl

theorem run?_pass (reports : List Diagnostic) (here : upToEof tokens = front ++ t :: rest) :
    (pass tokens t.kind).run? (.behind front reports) = some (.ok true, .behind (front ++ [t]) reports) := by
  have same : kindAt tokens front.length = t.kind := kindAt_behind here
  rw [pass, run?_get_bind, index_behind, if_pos same, run?_bind_ok (run?_advance reports here), run?_pure]

theorem run?_pass_other {kind : TokenKind} (here : upToEof tokens = front ++ back) (no_eof : kind ≠ .eof)
    (other : ∀ t ∈ back.head?, t.kind ≠ kind) :
    (pass tokens kind).run? (.behind front reports) = some (.ok false, .behind front reports) := by
  have differs : kindAt tokens front.length ≠ kind := of_kindAt (· ≠ kind) here no_eof.symm other
  rw [pass, run?_get_bind, index_behind, if_neg differs, run?_pure]

theorem run?_refuse {α : Type} (source : Source) (reports : List Diagnostic) (here : upToEof tokens = front ++ back)
    (expected : Expected) :
    (refuse source tokens expected : Routine α).run? (.behind front reports) = some (.error (),
      .behind front (reports ++ [expectedReport source (endSpan source tokens) ⟨expected, back⟩])) := by
  rw [← missingReport_behind here expected]
  rfl

end Routine

/-! ### Routines and parts of headers -/

/-- From this place on the routine takes the tokens that the part takes, and gives what it gives or reports where it
deviates. -/
def Routine.FollowsAt {α : Type} (source : Source) (tokens : List Token) (m : Routine α) (part : Part α)
    (front back : List Token) (reports : List Diagnostic) : Prop :=
  match part back with
  | .ok (a, rest) => ∃ used, back = used ++ rest ∧
      m.run? (.behind front reports) = some (.ok a, .behind (front ++ used) reports)
  | .error e => ∃ used, back = used ++ e.rest ∧ m.run? (.behind front reports) = some (.error (),
      .behind (front ++ used) (reports ++ [expectedReport source (endSpan source tokens) e]))

def Routine.Follows {α : Type} (source : Source) (tokens : List Token) (m : Routine α) (part : Part α) : Prop :=
  ∀ front back reports, upToEof tokens = front ++ back → m.FollowsAt source tokens part front back reports

namespace Routine

variable {α β : Type} {m m' : Routine α} {part part' : Part α}

/-- What a routine comes to is what it comes to a few tokens further on. -/
theorem FollowsAt.of_later (used : List Token)
    (later : m'.FollowsAt source tokens part' (front ++ used) rest reports)
    (same_part : part (used ++ rest) = part' rest)
    (same : m.run? (.behind front reports) = m'.run? (.behind (front ++ used) reports)) :
    m.FollowsAt source tokens part front (used ++ rest) reports := by
  unfold FollowsAt at later ⊢
  rw [same_part, same]
  split at later
  · obtain ⟨more, rfl, run⟩ := later
    exact ⟨used ++ more, (List.append_assoc _ _ _).symm, by rw [run, List.append_assoc]⟩
  · obtain ⟨more, split, run⟩ := later
    exact ⟨used ++ more, by rw [split, List.append_assoc], by rw [run, List.append_assoc]⟩

theorem FollowsAt.congr (follows : m'.FollowsAt source tokens part' front back reports)
    (same_part : part back = part' back) (same : m.run? (.behind front reports) = m'.run? (.behind front reports)) :
    m.FollowsAt source tokens part front back reports := by
  unfold FollowsAt at follows ⊢
  rwa [same_part, same]

theorem FollowsAt.of_ok {a : α} (used : List Token) (given : part (used ++ rest) = .ok (a, rest))
    (run : m.run? (.behind front reports) = some (.ok a, .behind (front ++ used) reports)) :
    m.FollowsAt source tokens part front (used ++ rest) reports := by
  unfold FollowsAt
  rw [given]
  exact ⟨used, rfl, run⟩

/-- The part deviates where the routine refuses to go on. -/
theorem FollowsAt.of_refuse (used : List Token) (expected : Expected) (here : upToEof tokens = front ++ (used ++ rest))
    (given : part (used ++ rest) = .error ⟨expected, rest⟩)
    (run : m.run? (.behind front reports) =
      (refuse source tokens expected : Routine α).run? (.behind (front ++ used) reports)) :
    m.FollowsAt source tokens part front (used ++ rest) reports := by
  rw [← List.append_assoc] at here
  unfold FollowsAt
  rw [given]
  exact ⟨used, rfl, run.trans (run?_refuse source reports here expected)⟩

theorem FollowsAt.andThen {k : α → Routine β} {second : α → Part β}
    (first : m.FollowsAt source tokens part front back reports)
    (behind : ∀ a used rest, back = used ++ rest → part back = .ok (a, rest) →
      (k a).FollowsAt source tokens (second a) (front ++ used) rest reports) :
    (m >>= k).FollowsAt source tokens (part.andThen second) front back reports := by
  cases gives : part back with
  | error e =>
    simp only [FollowsAt, gives, Part.andThen] at first ⊢
    obtain ⟨used, split, run⟩ := first
    exact ⟨used, split, run?_bind_error run k⟩
  | ok found =>
    obtain ⟨a, rest⟩ := found
    simp only [FollowsAt, gives] at first
    obtain ⟨used, rfl, run⟩ := first
    refine FollowsAt.of_later used (behind a used rest rfl gives) ?_ (run?_bind_ok run k)
    rw [Part.andThen, gives]

theorem Follows.andThen {k : α → Routine β} {second : α → Part β} (first : m.Follows source tokens part)
    (behind : ∀ a, (k a).Follows source tokens (second a)) :
    (m >>= k).Follows source tokens (part.andThen second) := by
  intro front back reports here
  refine (first front back reports here).andThen fun a used rest split _ => behind a _ rest reports ?_
  rw [here, split, List.append_assoc]

theorem Follows.map (follows : m.Follows source tokens part) (f : α → β) :
    (m >>= fun a => pure (f a)).Follows source tokens (part.map f) := by
  have value (a : α) : (pure (f a) : Routine β).Follows source tokens (fun rest => .ok (f a, rest)) :=
    fun front back reports _ => FollowsAt.of_ok [] rfl (by rw [List.append_nil, run?_pure])
  exact follows.andThen value

theorem expect_follows (kind : TokenKind) (no_eof : kind ≠ .eof) :
    (expect source tokens kind).Follows source tokens (token kind) := by
  intro front back reports here
  rcases head?_cases (·.kind = kind) back with ⟨t, rest, rfl, rfl⟩ | other
  · exact FollowsAt.of_ok [t] (if_pos rfl) (run?_bind_ok (run?_pass reports here) _)
  · refine FollowsAt.of_refuse [] (.token kind) here ?_ ?_
    · cases back with
      | nil => rfl
      | cons t rest => exact if_neg (other t rfl)
    · rw [List.append_nil]
      exact run?_bind_ok (run?_pass_other here no_eof other) _

theorem spellingAt_behind (here : upToEof tokens = front ++ t :: rest) :
    spellingAt source tokens front.length = spelled source t := by
  rw [spellingAt, getElem?_behind here]
  rfl

theorem run?_name (reports : List Diagnostic) (here : upToEof tokens = front ++ t :: rest)
    (ident : t.kind = .identifier) : (name source tokens).run? (.behind front reports) =
      some (.ok (spelled source t), .behind (front ++ [t]) reports) := by
  have kind : kindAt tokens front.length = t.kind := kindAt_behind here
  rw [name, run?_get_bind, index_behind, if_pos (kind.trans ident), run?_bind_ok (run?_advance reports here), run?_pure,
    spellingAt_behind here]

theorem name_follows : (name source tokens).Follows source tokens (identifier (spelled source)) := by
  intro front back reports here
  rcases head?_cases (·.kind = .identifier) back with ⟨t, rest, rfl, same⟩ | other
  · exact FollowsAt.of_ok [t] (if_pos same) (run?_name reports here same)
  · have differs : kindAt tokens front.length ≠ .identifier := of_kindAt (· ≠ .identifier) here nofun other
    refine FollowsAt.of_refuse [] .identifier here ?_ ?_
    · cases back with
      | nil => rfl
      | cons t rest => exact if_neg (other t rfl)
    · rw [List.append_nil, name, run?_get_bind, index_behind, if_neg differs]

/-! ### Lists of names -/

section

variable {dot : Token} (first : String)

theorem run?_suffixes_end (here : upToEof tokens = front ++ back)
    (no_dot : ∀ t ∈ back.head?, t.kind ≠ .symbol .dot) :
    (suffixes source tokens first).run? (.behind front reports) = some (.ok first, .behind front reports) := by
  refine run?_loop_end ?_
  rw [nextSuffix, run?_bind_ok (run?_pass_other here (by decide) no_dot)]
  rfl

theorem run?_suffixes_next (here : upToEof tokens = front ++ dot :: t :: rest) (mark : dot.kind = .symbol .dot)
    (suffix : isSuffix t.kind) : (suffixes source tokens first).run? (.behind front reports) =
      (suffixes source tokens (first ++ "." ++ spelled source t)).run? (.behind (front ++ [dot, t]) reports) := by
  have passed := run?_pass reports here
  rw [mark] at passed
  rw [List.append_cons] at here
  have kind : kindAt tokens (front ++ [dot]).length = t.kind := kindAt_behind here
  refine run?_loop_next ?_
  rw [nextSuffix, run?_bind_ok passed, if_pos rfl, run?_get_bind, index_behind]
  dsimp only
  rw [kind, if_pos suffix, run?_bind_ok (run?_advance reports here), spellingAt_behind here, List.append_assoc]
  rfl

theorem run?_suffixes_stop (here : upToEof tokens = front ++ dot :: rest) (mark : dot.kind = .symbol .dot)
    (other : ∀ t ∈ rest.head?, ¬ isSuffix t.kind) : (suffixes source tokens first).run? (.behind front reports) =
      some (.error (), .behind (front ++ [dot])
        (reports ++ [expectedReport source (endSpan source tokens) ⟨.suffix, rest⟩])) := by
  have passed := run?_pass reports here
  rw [mark] at passed
  rw [List.append_cons] at here
  have no_suffix : ¬ isSuffix (kindAt tokens (front ++ [dot]).length) :=
    of_kindAt (¬ isSuffix ·) here nofun other
  refine run?_loop_error ?_
  rw [nextSuffix, run?_bind_ok passed, if_pos rfl, run?_get_bind, index_behind, if_neg no_suffix]
  exact run?_refuse source reports here .suffix

/-- What is left of a list behind the first part of a name. -/
noncomputable def listFrom (source : Source) (tokens : List Token) (selected : Bool) (names : List String)
    (first : String) : Routine (List String) := do
  let names := names ++ [← nameRest source tokens selected first]
  if ← pass tokens (.symbol .comma) then nameList source tokens selected names else return names

variable {selected : Bool} {names : List String}

theorem nameList_eq : nameList source tokens selected names =
    name source tokens >>= listFrom source tokens selected names := by
  rw [nameList, loop_eq, nextName, bind_assoc]
  refine bind_congr fun first => ?_
  rw [listFrom, bind_assoc]
  refine bind_congr fun whole => ?_
  rw [bind_assoc]
  refine bind_congr fun passed => ?_
  cases passed with
  | false => exact pure_bind _ _
  | true => exact pure_bind _ _

theorem run?_listFrom_end (here : upToEof tokens = front ++ back)
    (no_dot : ∀ t ∈ back.head?, ¬ (selected ∧ t.kind = .symbol .dot)) :
    (listFrom source tokens selected names first).run? (.behind front reports) =
      (do if ← pass tokens (.symbol .comma) then nameList source tokens selected (names ++ [first])
          else return names ++ [first] : Routine (List String)).run? (.behind front reports) := by
  refine run?_bind_ok (?_ : (nameRest source tokens selected first).run? _ = some (.ok first, _)) _
  cases selected with
  | false => rfl
  | true => exact run?_suffixes_end first here fun t mem dot => no_dot t mem ⟨rfl, dot⟩

end

/-! The same steps of the part. -/

theorem map_ok {α β : Type} {part : Part α} {a : α} (given : part back = .ok (a, rest)) (f : α → β) :
    part.map f back = .ok (f a, rest) := by
  rw [Part.map, given]

theorem map_error {α β : Type} {part : Part α} {e : Deviation} (given : part back = .error e) (f : α → β) :
    part.map f back = .error e := by
  rw [Part.map, given]

theorem namesFrom_stop {dot : Token} (first : String) (mark : dot.kind = .symbol .dot)
    (other : ∀ t ∈ rest.head?, ¬ isSuffix t.kind) :
    namesFrom (spelled source) true first (dot :: rest) = .error ⟨.suffix, rest⟩ := by
  cases rest with
  | nil => rw [namesFrom, if_pos ⟨rfl, mark⟩]
  | cons t rest => rw [namesFrom, if_pos ⟨rfl, mark⟩, if_neg (other t rfl)]

theorem namesFrom_comma {selected : Bool} {comma : Token} (names : List String) (first : String)
    (mark : comma.kind = .symbol .comma) (rest : List Token) :
    ((namesFrom (spelled source) selected first).map (names ++ ·)) (comma :: rest) =
      ((identifier (spelled source)).andThen fun next =>
        (namesFrom (spelled source) selected next).map (names ++ [first] ++ ·)) rest := by
  have no_dot : ¬ (selected ∧ comma.kind = .symbol .dot) := by simp [mark]
  cases rest with
  | nil => rw [Part.map, namesFrom, if_neg no_dot, if_pos mark, Part.andThen, identifier]
  | cons t rest =>
    rw [Part.map, namesFrom, if_neg no_dot, if_pos mark, Part.andThen, identifier]
    by_cases name : t.kind = .identifier
    · rw [if_pos name, if_pos name]
      dsimp only
      rw [Part.map]
      cases namesFrom (spelled source) selected (spelled source t) rest <;> simp
    · rw [if_neg name, if_neg name]

/-- The names that follow are those of the part. -/
theorem listFrom_follows {front back : List Token} (selected : Bool) (names : List String) (first : String)
    (here : upToEof tokens = front ++ back) : (listFrom source tokens selected names first).FollowsAt source tokens
      ((namesFrom (spelled source) selected first).map (names ++ ·)) front back reports := by
  cases back with
  | nil =>
    refine FollowsAt.of_ok [] rfl ?_
    rw [List.append_nil, run?_listFrom_end first here nofun, run?_bind_ok (run?_pass_other here (by decide) nofun)]
    rfl
  | cons mark rest =>
    have later : upToEof tokens = front ++ [mark] ++ rest := by rw [here, List.append_cons]
    by_cases dot : selected ∧ mark.kind = .symbol .dot
    · obtain ⟨rfl, dot⟩ := dot
      rcases head?_cases (isSuffix ·.kind) rest with ⟨t, rest, rfl, suffix⟩ | other
      · -- A suffix makes the name longer.
        have later : upToEof tokens = front ++ [mark, t] ++ rest := by rw [here, List.append_assoc]; rfl
        refine FollowsAt.of_later [mark, t] (listFrom_follows true names (first ++ "." ++ spelled source t) later) ?_ ?_
        · show Part.map _ _ (mark :: t :: rest) = _
          rw [Part.map, namesFrom, if_pos ⟨rfl, dot⟩, if_pos suffix]
          rfl
        · rw [listFrom, listFrom, run?_bind, run?_bind, nameRest, nameRest, if_pos rfl, if_pos rfl,
            run?_suffixes_next _ here dot suffix]
      · refine FollowsAt.of_refuse [mark] .suffix here ?_ ?_
        · exact map_error (namesFrom_stop first dot other) _
        · have stops : (suffixes source tokens first).run? (.behind front reports) = _ :=
            run?_suffixes_stop first here dot other
          exact (run?_bind_error stops _).trans (run?_refuse source reports later .suffix).symm
    have no_dot : ∀ t ∈ (mark :: rest).head?, ¬ (selected ∧ t.kind = .symbol .dot) := by
      rintro t same
      cases same
      exact dot
    by_cases comma : mark.kind = .symbol .comma
    · -- Another name, and the list behind it.
      have passed := run?_pass reports here
      rw [comma] at passed
      refine FollowsAt.of_later [mark] ((name_follows _ rest reports later).andThen
        fun next used rest split _ => listFrom_follows selected (names ++ [first]) next ?_)
        (namesFrom_comma names first comma rest) ?_
      · rw [later, split, ← List.append_assoc]
      · rw [run?_listFrom_end first here no_dot, run?_bind_ok passed, if_pos rfl, nameList_eq]
    · refine FollowsAt.of_ok [] (map_ok (namesFrom_other first rest dot comma) _) ?_
      have no_comma : ∀ t ∈ (mark :: rest).head?, t.kind ≠ .symbol .comma := by
        rintro t same
        cases same
        exact comma
      rw [run?_listFrom_end first here no_dot, run?_bind_ok (run?_pass_other here (by decide) no_comma),
        List.append_nil]
      rfl
termination_by back.length

theorem nameList_follows (selected : Bool) (names : List String) :
    (nameList source tokens selected names).Follows source tokens
      ((Outline.nameList (spelled source) selected).map (names ++ ·)) := by
  have list : ((identifier (spelled source)).andThen fun first =>
      (namesFrom (spelled source) selected first).map (names ++ ·)) =
      (Outline.nameList (spelled source) selected).map (names ++ ·) := by
    funext rest
    rw [Part.andThen, Part.map, Outline.nameList, Part.andThen]
    cases identifier (spelled source) rest <;> rfl
  rw [nameList_eq, ← list]
  exact name_follows.andThen fun first front back reports here => listFrom_follows selected names first here

/-! ### Headers -/

theorem contextItem_follows (kind : UnitKind) (selected : Bool) (position : Position) :
    (contextItem source tokens kind selected position).Follows source tokens
      (Outline.contextItem (spelled source) kind selected position) := by
  have names : Routine.Follows source tokens _ _ := nameList_follows selected []
  have same : (Outline.nameList (spelled source) selected).map ([] ++ ·) =
      Outline.nameList (spelled source) selected := by
    funext rest
    rw [Part.map]
    split <;> simp [*]
  rw [same] at names
  exact names.andThen fun names => (expect_follows (.symbol .semicolon) (by decide)).map _

theorem named_follows (kind : UnitKind) (position : Position) :
    (named source tokens kind position).Follows source tokens (Outline.named (spelled source) kind position) :=
  name_follows.andThen fun _ => (expect_follows (.keyword .is) (by decide)).map _

theorem secondary_follows (kind : UnitKind) (position : Position) :
    (secondary source tokens kind position).Follows source tokens (Outline.secondary (spelled source) kind position) :=
  name_follows.andThen fun _ => (expect_follows (.keyword .of) (by decide)).andThen fun _ =>
    name_follows.andThen fun _ => (expect_follows (.keyword .is) (by decide)).map _

/-- The next two kinds tell a declaration from a reference. -/
theorem declares_iff (here : upToEof tokens = front ++ back) : Declares back ↔
    kindAt tokens front.length = .identifier ∧ kindAt tokens (front.length + 1) = .keyword .is := by
  cases back with
  | nil =>
    rw [kindAt_behind here]
    constructor
    · rintro ⟨_, _, _, split, -⟩
      exact nomatch split
    · rintro ⟨ident, -⟩
      exact nomatch ident
  | cons name rest =>
    have behind := kindAt_behind (here.trans (List.append_cons front name rest))
    rw [List.length_append, List.length_singleton] at behind
    rw [kindAt_behind here, behind]
    constructor
    · rintro ⟨_, is, _, split, ident, word⟩
      cases split
      exact ⟨ident, word⟩
    · rintro ⟨ident, word⟩
      cases rest with
      | nil => exact nomatch word
      | cons is rest => exact ⟨name, is, rest, rfl, ident, word⟩

theorem context_follows (position : Position) :
    (context source tokens position).Follows source tokens (Outline.context (spelled source) position) := by
  intro front back reports here
  by_cases declares : Declares back
  · have kinds := (declares_iff here).mp declares
    obtain ⟨name, is, rest, rfl, ident, word⟩ := declares
    refine FollowsAt.of_ok [name, is] (context_of_declares rest ident word) ?_
    rw [context, run?_get_bind, index_behind]
    dsimp only
    have behind := here.trans (List.append_cons front name (is :: rest))
    rw [if_pos kinds, run?_bind_ok (run?_name reports here ident), run?_bind_ok (run?_advance reports behind),
      run?_pure, List.append_assoc]
    rfl
  · have kinds := fun same => declares ((declares_iff here).mpr same)
    refine (contextItem_follows .contextReference true position front back reports here).congr
      (context_of_not_declares declares) ?_
    rw [context, run?_get_bind, index_behind]
    dsimp only
    rw [if_neg kinds]

theorem package_follows (position : Position) :
    (package source tokens position).Follows source tokens (Outline.package (spelled source) position) := by
  intro front back reports here
  rcases head?_cases (·.kind = .keyword .body) back with ⟨t, rest, rfl, body⟩ | other
  · have later : upToEof tokens = front ++ [t] ++ rest := by rw [here, List.append_cons]
    have passed := run?_pass reports here
    rw [body] at passed
    exact FollowsAt.of_later [t] (named_follows .packageBody position _ rest reports later) (package_of_body rest body)
      (run?_bind_ok passed _)
  · exact (named_follows .package position front back reports here).congr (package_of_not_body other)
      (run?_bind_ok (run?_pass_other here (by decide) other) _)

/-- The words that start a header are the same, and so is what they start. -/
theorem header?_follows (source : Source) (tokens : List Token) (kind : TokenKind) (position : Position) :
    (header? source tokens kind position = none ∧ Outline.header? (spelled source) kind position = none) ∨
      ∃ m part, header? source tokens kind position = some m ∧
        Outline.header? (spelled source) kind position = some part ∧ m.Follows source tokens part := by
  unfold header?
  split
  · exact Or.inr ⟨_, _, rfl, rfl, contextItem_follows _ _ _⟩
  · exact Or.inr ⟨_, _, rfl, rfl, contextItem_follows _ _ _⟩
  · exact Or.inr ⟨_, _, rfl, rfl, context_follows _⟩
  · exact Or.inr ⟨_, _, rfl, rfl, named_follows _ _⟩
  · exact Or.inr ⟨_, _, rfl, rfl, secondary_follows _ _⟩
  · exact Or.inr ⟨_, _, rfl, rfl, secondary_follows _ _⟩
  · exact Or.inr ⟨_, _, rfl, rfl, package_follows _⟩
  · refine Or.inl ⟨rfl, ?_⟩
    unfold Outline.header?
    split <;> first | contradiction | rfl

end Routine

end VhdlFrontEnd.Outline
