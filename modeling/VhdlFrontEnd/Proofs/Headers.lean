import VhdlFrontEnd.Proofs.Parts

/-!
# Headers are read by the grammar

`header_recognises` shows that what a header reads behind its first word is a header of the
grammar, and that it stops at the first token with which no header of the grammar goes on.
-/

namespace VhdlFrontEnd.Outline

variable {spelling : Token → String} {selected : Bool}

/-! ### Whole headers, after their first word -/

/-- The names and the semicolon of a context item. -/
def ItemText (spelling : Token → String) (kind : UnitKind) (selected : Bool) (position : Position)
    (used : List Token) (u : DesignUnit) : Prop :=
  ∃ ts semicolon names, used = ts ++ [semicolon] ∧ semicolon.kind = .symbol .semicolon ∧
    NamesText spelling selected ts names ∧ u = { kind, names, position }

/-- The name and the word `is` of a unit on its own. -/
def NamedText (spelling : Token → String) (kind : UnitKind) (position : Position)
    (used : List Token) (u : DesignUnit) : Prop :=
  ∃ name is, used = [name, is] ∧ name.kind = .identifier ∧ is.kind = .keyword .is ∧
    u = { kind, name? := some (spelling name), position }

/-- The name, the entity and the word `is` of a unit that belongs to an entity. -/
def SecondaryText (spelling : Token → String) (kind : UnitKind) (position : Position)
    (used : List Token) (u : DesignUnit) : Prop :=
  ∃ name of entity is, used = [name, of, entity, is] ∧ name.kind = .identifier ∧
    of.kind = .keyword .of ∧ entity.kind = .identifier ∧ is.kind = .keyword .is ∧
    u = { kind, name? := some (spelling name), of? := some (spelling entity), position }

variable {kind : UnitKind} {position : Position}

theorem contextItem_eq : contextItem spelling kind selected position =
    ((identifier spelling).andThen (listTail spelling selected)).map
      fun names => { kind, names, position } := by
  rw [contextItem, nameList, Part.andThen_assoc]
  funext tokens
  unfold listTail Part.map Part.andThen
  cases identifier spelling tokens with
  | error e => rfl
  | ok found =>
    obtain ⟨name, rest⟩ := found
    dsimp only
    cases namesFrom spelling selected name rest with
    | error e => rfl
    | ok found =>
      obtain ⟨names, rest⟩ := found
      dsimp only
      cases token (.symbol .semicolon) rest <;> rfl

theorem contextItem_recognises :
    (contextItem spelling kind selected position).Recognises
      (ItemText spelling kind selected position) := by
  rw [contextItem_eq]
  refine ((identifier_recognises.andThen listTail_recognises exists_listTail).map _).of_iff ?_
  intro used u
  constructor
  · rintro ⟨names, ⟨_, v, _, rfl, ⟨t, rfl, ident, rfl⟩, tail⟩, rfl⟩
    obtain ⟨ts, semicolon, rfl, mark, text⟩ := namesText_of_listTail (.identifier ident) tail
    exact ⟨t :: ts, semicolon, names, rfl, mark, text, rfl⟩
  · rintro ⟨ts, semicolon, names, rfl, mark, text, rfl⟩
    obtain ⟨t, rest, split, ident, tail⟩ := listTail_of_namesText text mark
    exact ⟨names, ⟨[t], rest, spelling t, split, ⟨t, rfl, ident, rfl⟩, tail⟩, rfl⟩

theorem named_recognises :
    (named spelling kind position).Recognises (NamedText spelling kind position) := by
  refine (identifier_recognises.andThen (fun name => (token_recognises (.keyword .is)).map _)
    fun name => ?_).of_iff fun used u => ?_
  · obtain ⟨v, a, text⟩ := exists_single (.keyword .is) fun _ => ()
    exact ⟨v, _, a, text, rfl⟩
  · constructor
    · rintro ⟨_, _, _, rfl, ⟨name, rfl, ident, rfl⟩, -, ⟨is, rfl, word, -⟩, rfl⟩
      exact ⟨name, is, rfl, ident, word, rfl⟩
    · rintro ⟨name, is, rfl, ident, word, rfl⟩
      exact ⟨[name], [is], spelling name, rfl, ⟨name, rfl, ident, rfl⟩, (), ⟨is, rfl, word, rfl⟩, rfl⟩

theorem secondary_recognises :
    (secondary spelling kind position).Recognises (SecondaryText spelling kind position) := by
  have words (word : Keyword) : ∃ v a, Single (.keyword word) (fun _ : Token => ()) v a :=
    exists_single _ _
  obtain ⟨is, _, is_text⟩ := words .is
  obtain ⟨entity, of, entity_text⟩ := exists_single .identifier spelling
  obtain ⟨word, _, word_text⟩ := words .of
  refine (identifier_recognises.andThen (fun name => (token_recognises (.keyword .of)).andThen
    (fun _ => identifier_recognises.andThen
      (fun of => (token_recognises (.keyword .is)).map _) ?_) ?_) ?_).of_iff fun used u => ?_
  · exact fun of => ⟨is, _, _, is_text, rfl⟩
  · exact fun _ => ⟨entity ++ is, _, entity, is, of, rfl, entity_text, _, is_text, rfl⟩
  · exact fun name => ⟨word ++ (entity ++ is), _, word, entity ++ is, _, rfl, word_text, entity, is, of,
      rfl, entity_text, _, is_text, rfl⟩
  · constructor
    · rintro ⟨_, _, _, rfl, ⟨name, rfl, ident, rfl⟩, _, _, -, rfl, ⟨of, rfl, of_word, -⟩, _, _, _, rfl,
        ⟨entity, rfl, entity_ident, rfl⟩, -, ⟨is, rfl, is_word, -⟩, rfl⟩
      exact ⟨name, of, entity, is, rfl, ident, of_word, entity_ident, is_word, rfl⟩
    · rintro ⟨name, of, entity, is, rfl, ident, of_word, entity_ident, is_word, rfl⟩
      exact ⟨[name], _, spelling name, rfl, ⟨name, rfl, ident, rfl⟩, [of], _, (), rfl,
        ⟨of, rfl, of_word, rfl⟩, [entity], [is], spelling entity, rfl, ⟨entity, rfl, entity_ident, rfl⟩,
        (), ⟨is, rfl, is_word, rfl⟩, rfl⟩

/-- The tokens start with a name and the word `is`. -/
def Declares (tokens : List Token) : Prop :=
  ∃ name is rest, tokens = name :: is :: rest ∧ name.kind = .identifier ∧ is.kind = .keyword .is

theorem context_of_declares {name is : Token} (rest : List Token) (ident : name.kind = .identifier)
    (word : is.kind = .keyword .is) : context spelling position (name :: is :: rest) =
      .ok ({ kind := .context, name? := some (spelling name), position }, rest) := by
  rw [context, if_pos ⟨ident, word⟩]

theorem context_of_not_declares {tokens : List Token} (other : ¬ Declares tokens) :
    context spelling position tokens = contextItem spelling .contextReference true position tokens := by
  unfold context
  split
  · next name is rest =>
    rw [if_neg]
    rintro ⟨ident, word⟩
    exact other ⟨name, is, rest, rfl, ident, word⟩
  · rfl

theorem not_declares_of_itemText {used : List Token} {u : DesignUnit}
    (text : ItemText spelling kind selected position used u) (rest : List Token) :
    ¬ Declares (used ++ rest) := by
  obtain ⟨ts, semicolon, names, rfl, mark, text, -⟩ := text
  obtain ⟨t, tail, split, -, tail_text⟩ := listTail_of_namesText text mark
  rw [split]
  rintro ⟨name, is, more, same, -, word⟩
  cases tail_text with
  | semicolon mark =>
    cases same
    exact nomatch mark.symm.trans word
  | suffix _ mark _ _ =>
    cases same
    exact nomatch mark.symm.trans word
  | comma mark _ _ =>
    cases same
    exact nomatch mark.symm.trans word

/-- Where a reference stops, no other tokens behind make it a declaration. -/
theorem not_declares_of_stops {used rest other : List Token} {expected : Expected}
    (stops : ∀ tokens : List Token, tokens.head? = rest.head? →
      contextItem spelling .contextReference true position (used ++ tokens) =
        .error ⟨expected, tokens⟩)
    (no : ¬ Declares (used ++ rest)) (same : other.head? = rest.head?) :
    ¬ Declares (used ++ other) := by
  rintro ⟨name, is, more, split, ident, word⟩
  match used, split with
  | [], split =>
    -- The name would have been read, as in a reference to it alone.
    obtain ⟨_, _, semicolon, -, mark, -⟩ := exists_single (.symbol .semicolon) fun _ => ()
    have text : ItemText spelling .contextReference true position [name, semicolon] _ :=
      ⟨[name], semicolon, [spelling name], rfl, mark, .last (.identifier ident), rfl⟩
    have reads := contextItem_recognises.complete text []
    rw [List.nil_append] at split
    have first : [name, semicolon].head? = rest.head? := by rw [← same, split]; rfl
    exact nomatch (stops _ first).symm.trans reads
  | [first], split =>
    obtain ⟨rfl, rfl⟩ := List.cons.inj split
    obtain ⟨more, rfl⟩ := List.head?_eq_some_iff.mp same.symm
    exact no ⟨first, is, more, rfl, ident, word⟩
  | first :: second :: _, split =>
    obtain ⟨rfl, tail⟩ := List.cons.inj split
    obtain ⟨rfl, -⟩ := List.cons.inj tail
    exact no ⟨first, second, _, rfl, ident, word⟩

theorem context_recognises : (context spelling position).Recognises fun used u =>
    NamedText spelling .context position used u ∨
      ItemText spelling .contextReference true position used u := by
  constructor
  · intro tokens u rest ok
    by_cases declares : Declares tokens
    · obtain ⟨name, is, more, rfl, ident, word⟩ := declares
      rw [context_of_declares more ident word] at ok
      cases ok
      exact ⟨[name, is], rfl, Or.inl ⟨name, is, rfl, ident, word, rfl⟩⟩
    · rw [context_of_not_declares declares] at ok
      obtain ⟨used, split, text⟩ := contextItem_recognises.sound ok
      exact ⟨used, split, Or.inr text⟩
  · rintro used u (⟨name, is, rfl, ident, word, rfl⟩ | text) rest
    · exact context_of_declares rest ident word
    · rw [context_of_not_declares (not_declares_of_itemText text rest)]
      exact contextItem_recognises.complete text rest
  · intro tokens e error
    by_cases declares : Declares tokens
    · obtain ⟨name, is, more, rfl, ident, word⟩ := declares
      rw [context_of_declares more ident word] at error
      exact nomatch error
    · rw [context_of_not_declares declares] at error
      obtain ⟨used, rfl, fits, stops⟩ := contextItem_recognises.stops error
      refine ⟨used, rfl, fun t fit => ?_, fun rest same => ?_⟩
      · obtain ⟨after, u, text⟩ := fits t fit
        exact ⟨after, u, Or.inr text⟩
      · rw [context_of_not_declares (not_declares_of_stops stops declares same)]
        exact stops rest same

theorem package_of_body {body : Token} (rest : List Token) (word : body.kind = .keyword .body) :
    package spelling position (body :: rest) = named spelling .packageBody position rest := by
  rw [package, if_pos word]

theorem package_of_not_body {tokens : List Token}
    (other : ∀ t ∈ tokens.head?, t.kind ≠ .keyword .body) :
    package spelling position tokens = named spelling .package position tokens := by
  unfold package
  split
  · next t rest => rw [if_neg (other t rfl)]
  · rfl

theorem package_recognises : (package spelling position).Recognises fun used u =>
    NamedText spelling .package position used u ∨
      ∃ body rest, used = body :: rest ∧ body.kind = .keyword .body ∧
        NamedText spelling .packageBody position rest u := by
  constructor
  · intro tokens u rest ok
    by_cases word : ∃ body ∈ tokens.head?, body.kind = .keyword .body
    · obtain ⟨body, first, word⟩ := word
      obtain ⟨tokens, rfl⟩ := List.head?_eq_some_iff.mp (Option.mem_def.mp first)
      rw [package_of_body tokens word] at ok
      obtain ⟨used, rfl, text⟩ := named_recognises.sound ok
      exact ⟨body :: used, rfl, Or.inr ⟨body, used, rfl, word, text⟩⟩
    · rw [package_of_not_body fun t first same => word ⟨t, first, same⟩] at ok
      obtain ⟨used, split, text⟩ := named_recognises.sound ok
      exact ⟨used, split, Or.inl text⟩
  · rintro used u (text | ⟨body, rest, rfl, word, text⟩) more
    · rw [package_of_not_body]
      · exact named_recognises.complete text more
      · obtain ⟨name, is, rfl, ident, -, -⟩ := text
        intro t first
        cases first
        rw [ident]
        exact nofun
    · rw [List.cons_append, package_of_body _ word]
      exact named_recognises.complete text more
  · intro tokens e error
    by_cases word : ∃ body ∈ tokens.head?, body.kind = .keyword .body
    · obtain ⟨body, first, word⟩ := word
      obtain ⟨tokens, rfl⟩ := List.head?_eq_some_iff.mp (Option.mem_def.mp first)
      rw [package_of_body tokens word] at error
      obtain ⟨used, rfl, fits, again⟩ := named_recognises.stops error
      refine ⟨body :: used, rfl, fun t fit => ?_, fun rest same => ?_⟩
      · obtain ⟨after, u, text⟩ := fits t fit
        exact ⟨after, u, Or.inr ⟨body, _, rfl, word, text⟩⟩
      · rw [List.cons_append, package_of_body _ word, again rest same]
    · have other : ∀ t ∈ tokens.head?, t.kind ≠ .keyword .body := fun t first same => word ⟨t, first, same⟩
      rw [package_of_not_body other] at error
      obtain ⟨used, rfl, fits, again⟩ := named_recognises.stops error
      refine ⟨used, rfl, fun t fit => ?_, fun rest same => ?_⟩
      · obtain ⟨after, u, text⟩ := fits t fit
        exact ⟨after, u, Or.inl text⟩
      · rw [package_of_not_body, again rest same]
        rw [List.head?_append] at other ⊢
        rwa [same]

/-! ### All headers -/

theorem headerText_cons_iff {first : Token} {used : List Token} {u : DesignUnit} :
    HeaderText spelling (first :: used) u ↔
      (∃ form ∈ itemForms, first.kind = .keyword form.1 ∧
        ItemText spelling form.2.1 form.2.2 first.position used u) ∨
      (∃ form ∈ namedForms, first.kind = .keyword form.1 ∧
        NamedText spelling form.2 first.position used u) ∨
      (first.kind = .keyword .package ∧ ∃ body rest, used = body :: rest ∧
        body.kind = .keyword .body ∧ NamedText spelling .packageBody first.position rest u) ∨
      ∃ form ∈ secondaryForms, first.kind = .keyword form.1 ∧
        SecondaryText spelling form.2 first.position used u := by
  constructor
  · intro text
    cases text with
    | item form word names mark => exact Or.inl ⟨_, form, word, _, _, _, rfl, mark, names, rfl⟩
    | named form word ident is => exact Or.inr (Or.inl ⟨_, form, word, _, _, rfl, ident, is, rfl⟩)
    | packageBody word body ident is =>
      exact Or.inr (Or.inr (Or.inl ⟨word, _, _, rfl, body, _, _, rfl, ident, is, rfl⟩))
    | secondary form word ident of entity is =>
      exact Or.inr (Or.inr (Or.inr ⟨_, form, word, _, _, _, _, rfl, ident, of, entity, is, rfl⟩))
  · rintro (⟨_, form, word, _, _, _, rfl, mark, text, rfl⟩ |
      ⟨_, form, word, _, _, rfl, ident, is, rfl⟩ |
      ⟨word, _, _, rfl, body, _, _, rfl, ident, is, rfl⟩ |
      ⟨_, form, word, _, _, _, _, rfl, ident, of, entity, is, rfl⟩)
    · exact .item form word text mark
    · exact .named form word ident is
    · exact .packageBody word body ident is
    · exact .secondary form word ident of entity is

theorem header_recognises {first : Token} {part : Part DesignUnit}
    (h : header? spelling first.kind first.position = some part) :
    part.Recognises fun used u => HeaderText spelling (first :: used) u := by
  simp only [headerText_cons_iff, itemForms, namedForms, secondaryForms]
  unfold header? at h
  split at h
  · next word =>
    cases h
    exact contextItem_recognises.of_iff fun used u => by simp [word]
  · next word =>
    cases h
    exact contextItem_recognises.of_iff fun used u => by simp [word]
  · next word =>
    cases h
    exact context_recognises.of_iff fun used u => by simp [word, or_comm]
  · next word =>
    cases h
    exact named_recognises.of_iff fun used u => by simp [word]
  · next word =>
    cases h
    exact secondary_recognises.of_iff fun used u => by simp [word]
  · next word =>
    cases h
    exact secondary_recognises.of_iff fun used u => by simp [word]
  · next word =>
    cases h
    exact package_recognises.of_iff fun used u => by simp [word]
  · exact nomatch h

end VhdlFrontEnd.Outline
