import VhdlFrontEnd.Proofs.Grammar

/-!
# Parts of headers and their forms

`Recognises` ties a part of a header to a form: what the part reads is a text of the form, and it
stops at the first token with which no text of the form goes on. It is shown of single tokens and
of lists of names, and carried over from two parts to one after the other.
-/

namespace VhdlFrontEnd.Outline

variable {spelling : Token → String}

/-! ### Parts and forms -/

/-- The part reads the texts of the form, whatever follows them. Where it stops, the form could go
on with what was expected; and up to there the part depends only on the tokens that it has passed
and on the one at which it stops. -/
structure Part.Recognises {α : Type} (part : Part α) (Form : List Token → α → Prop) : Prop where
  sound : ∀ {tokens a rest}, part tokens = .ok (a, rest) → ∃ used, tokens = used ++ rest ∧ Form used a
  complete : ∀ {used a}, Form used a → ∀ rest, part (used ++ rest) = .ok (a, rest)
  stops : ∀ {tokens e}, part tokens = .error e → ∃ used, tokens = used ++ e.rest ∧
    (∀ t, e.expected.Fits t.kind → ∃ after a, Form (used ++ t :: after) a) ∧
    ∀ rest, rest.head? = e.rest.head? → part (used ++ rest) = .error ⟨e.expected, rest⟩

namespace Part

variable {α β : Type} {Form : List Token → α → Prop}

theorem Recognises.of_iff {part : Part α} {Other : List Token → α → Prop}
    (h : part.Recognises Form) (same : ∀ used a, Form used a ↔ Other used a) :
    part.Recognises Other := by
  have : Form = Other := funext fun used => funext fun a => propext (same used a)
  rwa [← this]

/-- The part stops where the form could go on with what was expected, and does not go on with the
token that stands there. -/
theorem Recognises.deviates {part : Part α} (h : part.Recognises Form) {tokens : List Token}
    {e : Deviation} (stopped : part tokens = .error e) :
    ∃ used, tokens = used ++ e.rest ∧
      (∀ t, e.expected.Fits t.kind → ∃ after a, Form (used ++ t :: after) a) ∧
      (∀ t ∈ e.rest.head?, ¬ ∃ after a, Form (used ++ t :: after) a) ∧
      ∀ rest, rest.head? = e.rest.head? → part (used ++ rest) = .error ⟨e.expected, rest⟩ := by
  obtain ⟨used, split, fits, again⟩ := h.stops stopped
  refine ⟨used, split, fits, ?_, again⟩
  rintro t first ⟨after, a, text⟩
  have reads := h.complete text []
  rw [List.append_nil, again (t :: after) (Option.mem_def.mp first).symm] at reads
  exact nomatch reads

theorem Recognises.map {part : Part α} (h : part.Recognises Form) (f : α → β) :
    (part.map f).Recognises fun used b => ∃ a, Form used a ∧ b = f a := by
  constructor
  · intro tokens b rest ok
    unfold Part.map at ok
    split at ok
    · next a r found =>
      cases ok
      obtain ⟨used, rfl, text⟩ := h.sound found
      exact ⟨used, rfl, a, text, rfl⟩
    · exact nomatch ok
  · rintro used b ⟨a, text, rfl⟩ rest
    rw [Part.map, h.complete text]
  · intro tokens e error
    unfold Part.map at error
    split at error
    · exact nomatch error
    · next stopped =>
      cases error
      obtain ⟨used, rfl, fits, again⟩ := h.stops stopped
      refine ⟨used, rfl, fun t fit => ?_, fun rest same => ?_⟩
      · obtain ⟨after, a, text⟩ := fits t fit
        exact ⟨after, f a, a, text, rfl⟩
      · rw [Part.map, again rest same]

/-- Forms one after the other. The second has some text after any value of the first. -/
theorem Recognises.andThen {first : Part α} {second : α → Part β}
    {Next : α → List Token → β → Prop} (hf : first.Recognises Form)
    (hs : ∀ a, (second a).Recognises (Next a)) (possible : ∀ a, ∃ v b, Next a v b) :
    (first.andThen second).Recognises fun used b =>
      ∃ u v a, used = u ++ v ∧ Form u a ∧ Next a v b := by
  constructor
  · intro tokens b rest ok
    unfold Part.andThen at ok
    split at ok
    · next a mid found =>
      obtain ⟨u, rfl, text⟩ := hf.sound found
      obtain ⟨v, rfl, more⟩ := (hs a).sound ok
      exact ⟨u ++ v, by simp, u, v, a, rfl, text, more⟩
    · exact nomatch ok
  · rintro used b ⟨u, v, a, rfl, text, more⟩ rest
    rw [Part.andThen, List.append_assoc, hf.complete text]
    exact (hs a).complete more rest
  · intro tokens e error
    unfold Part.andThen at error
    split at error
    · next a mid found =>
      obtain ⟨u, rfl, text⟩ := hf.sound found
      obtain ⟨v, rfl, fits, again⟩ := (hs a).stops error
      refine ⟨u ++ v, by simp, fun t fit => ?_, fun rest same => ?_⟩
      · obtain ⟨after, b, more⟩ := fits t fit
        exact ⟨after, b, u, v ++ t :: after, a, by simp, text, more⟩
      · rw [Part.andThen, List.append_assoc, hf.complete text]
        exact again rest same
    · next stopped =>
      cases error
      obtain ⟨u, rfl, fits, again⟩ := hf.stops stopped
      refine ⟨u, rfl, fun t fit => ?_, fun rest same => ?_⟩
      · obtain ⟨after, a, text⟩ := fits t fit
        obtain ⟨v, b, more⟩ := possible a
        exact ⟨after ++ v, b, u ++ t :: after, v, a, by simp, text, more⟩
      · rw [Part.andThen, again rest same]

theorem andThen_assoc {γ : Type} (first : Part α) (second : α → Part β) (third : β → Part γ) :
    (first.andThen second).andThen third = first.andThen fun a => (second a).andThen third := by
  funext tokens
  unfold Part.andThen
  cases first tokens <;> rfl

end Part

/-! ### Single tokens -/

/-- One token of the kind, with its value. -/
def Single {α : Type} (kind : TokenKind) (value : Token → α) (used : List Token) (a : α) : Prop :=
  ∃ t, used = [t] ∧ t.kind = kind ∧ a = value t

theorem recognises_single {α : Type} {part : Part α} {kind : TokenKind} {value : Token → α}
    (expected : Expected) (fits : ∀ found, expected.Fits found → found = kind)
    (empty : part [] = .error ⟨expected, []⟩)
    (taken : ∀ t rest, t.kind = kind → part (t :: rest) = .ok (value t, rest))
    (refused : ∀ t rest, t.kind ≠ kind → part (t :: rest) = .error ⟨expected, t :: rest⟩) :
    part.Recognises (Single kind value) := by
  have goes_on : ∀ t : Token, expected.Fits t.kind → ∃ after a, Single kind value ([] ++ t :: after) a :=
    fun t fit => ⟨[], value t, t, rfl, fits _ fit, rfl⟩
  constructor
  · intro tokens a rest ok
    cases tokens with
    | nil => exact nomatch empty.symm.trans ok
    | cons t tokens =>
      by_cases same : t.kind = kind
      · rw [taken t tokens same] at ok
        cases ok
        exact ⟨[t], rfl, t, rfl, same, rfl⟩
      · exact nomatch (refused t tokens same).symm.trans ok
  · rintro used - ⟨t, rfl, same, rfl⟩ rest
    exact taken t rest same
  · intro tokens e error
    cases tokens with
    | nil =>
      cases empty.symm.trans error
      refine ⟨[], rfl, goes_on, fun rest first => ?_⟩
      rw [List.head?_eq_none_iff.mp first]
      exact empty
    | cons t tokens =>
      by_cases same : t.kind = kind
      · exact nomatch (taken t tokens same).symm.trans error
      · cases (refused t tokens same).symm.trans error
        refine ⟨[], rfl, goes_on, fun rest first => ?_⟩
        obtain ⟨rest, rfl⟩ := List.head?_eq_some_iff.mp first
        exact refused t rest same

theorem token_recognises (kind : TokenKind) :
    (token kind).Recognises (Single kind fun _ => ()) :=
  recognises_single (.token kind) (fun _ fit => fit) rfl (fun _ _ same => if_pos same)
    fun _ _ other => if_neg other

theorem identifier_recognises : (identifier spelling).Recognises (Single .identifier spelling) :=
  recognises_single .identifier (fun _ fit => fit) rfl (fun _ _ same => if_pos same)
    fun _ _ other => if_neg other

theorem exists_single {α : Type} (kind : TokenKind) (value : Token → α) :
    ∃ used a, Single kind value used a :=
  ⟨_, _, ⟨kind, default, default⟩, rfl, rfl, rfl⟩

/-! ### Lists of names -/

/-- What may follow a name up to the semicolon that ends the list. -/
inductive ListTail (spelling : Token → String) (selected : Bool) :
    String → List Token → List String → Prop where
  | semicolon {name t} : t.kind = .symbol .semicolon → ListTail spelling selected name [t] [name]
  | suffix {name point t ts names} : selected → point.kind = .symbol .dot → isSuffix t.kind →
      ListTail spelling selected (name ++ "." ++ spelling t) ts names →
      ListTail spelling selected name (point :: t :: ts) names
  | comma {name comma t ts names} : comma.kind = .symbol .comma → t.kind = .identifier →
      ListTail spelling selected (spelling t) ts names →
      ListTail spelling selected name (comma :: t :: ts) (name :: names)

/-- The part that reads what follows a name, with the semicolon. -/
def listTail (spelling : Token → String) (selected : Bool) (name : String) : Part (List String) :=
  (namesFrom spelling selected name).andThen fun names =>
    (token (.symbol .semicolon)).map fun _ => names

variable {selected : Bool}

theorem listTail_suffix {point t : Token} (name : String) (rest : List Token) (sel : selected)
    (dot : point.kind = .symbol .dot) (suffix : isSuffix t.kind) :
    listTail spelling selected name (point :: t :: rest) =
      listTail spelling selected (name ++ "." ++ spelling t) rest := by
  rw [listTail, Part.andThen, namesFrom, if_pos ⟨sel, dot⟩, if_pos suffix]
  rfl

theorem listTail_comma {comma t : Token} (name : String) (rest : List Token)
    (mark : comma.kind = .symbol .comma) (ident : t.kind = .identifier) :
    listTail spelling selected name (comma :: t :: rest) =
      ((listTail spelling selected (spelling t)).map (name :: ·)) rest := by
  have no_dot : ¬ (selected ∧ comma.kind = .symbol .dot) := by simp [mark]
  rw [listTail, Part.andThen, namesFrom, if_neg no_dot, if_pos mark, if_pos ident]
  unfold listTail Part.map Part.andThen
  cases namesFrom spelling selected (spelling t) rest with
  | error e => rfl
  | ok found =>
    obtain ⟨names, tokens⟩ := found
    dsimp only
    cases token (.symbol .semicolon) tokens <;> rfl

theorem namesFrom_other {t : Token} (name : String) (rest : List Token)
    (no_dot : ¬ (selected ∧ t.kind = .symbol .dot)) (no_comma : t.kind ≠ .symbol .comma) :
    namesFrom spelling selected name (t :: rest) = .ok ([name], t :: rest) := by
  rw [namesFrom.eq_def]
  dsimp only
  rw [if_neg no_dot, if_neg no_comma]

theorem listTail_semicolon {t : Token} (name : String) (rest : List Token)
    (mark : t.kind = .symbol .semicolon) :
    listTail spelling selected name (t :: rest) = .ok ([name], rest) := by
  rw [listTail, Part.andThen, namesFrom_other name rest (by simp [mark]) (by simp [mark])]
  dsimp only
  rw [Part.map, token, if_pos mark]

/-- The list stops within the next two tokens. -/
def StopsSoon (spelling : Token → String) (selected : Bool) (name : String) (tokens : List Token) :
    Prop :=
  ∃ used expected rest, tokens = used ++ rest ∧
    (∀ t, Expected.Fits expected t.kind →
      ∃ after names, ListTail spelling selected name (used ++ t :: after) names) ∧
    ∀ other, other.head? = rest.head? →
      listTail spelling selected name (used ++ other) = .error ⟨expected, other⟩

theorem exists_listTail (name : String) : ∃ ts names, ListTail spelling selected name ts names := by
  obtain ⟨_, _, t, -, same, -⟩ := exists_single (.symbol .semicolon) fun _ => ()
  exact ⟨[t], [name], .semicolon same⟩

theorem stopsSoon_of_dot {point : Token} (name : String) (rest : List Token) (sel : selected)
    (dot : point.kind = .symbol .dot) (other : ∀ t ∈ rest.head?, ¬ isSuffix t.kind) :
    StopsSoon spelling selected name (point :: rest) := by
  refine ⟨[point], .suffix, rest, rfl, fun t suffix => ?_, fun tokens same => ?_⟩
  · obtain ⟨ts, names, text⟩ := exists_listTail (name ++ "." ++ spelling t)
    exact ⟨ts, names, .suffix sel dot suffix text⟩
  · rw [← same] at other
    rw [List.singleton_append, listTail, Part.andThen]
    cases tokens with
    | nil => rw [namesFrom, if_pos ⟨sel, dot⟩]
    | cons t tokens => rw [namesFrom, if_pos ⟨sel, dot⟩, if_neg (other t rfl)]

theorem stopsSoon_of_comma {comma : Token} (name : String) (rest : List Token)
    (mark : comma.kind = .symbol .comma) (other : ∀ t ∈ rest.head?, t.kind ≠ .identifier) :
    StopsSoon spelling selected name (comma :: rest) := by
  refine ⟨[comma], .identifier, rest, rfl, fun t ident => ?_, fun tokens same => ?_⟩
  · obtain ⟨ts, names, text⟩ := exists_listTail (spelling t)
    exact ⟨ts, _, .comma mark ident text⟩
  · rw [← same] at other
    have no_dot : ¬ (selected ∧ comma.kind = .symbol .dot) := by simp [mark]
    rw [List.singleton_append, listTail, Part.andThen]
    cases tokens with
    | nil => rw [namesFrom, if_neg no_dot, if_pos mark]
    | cons t tokens => rw [namesFrom, if_neg no_dot, if_pos mark, if_neg (other t rfl)]

theorem stopsSoon_of_other (name : String) (rest : List Token)
    (no_dot : ∀ t ∈ rest.head?, ¬ (selected ∧ t.kind = .symbol .dot))
    (no_comma : ∀ t ∈ rest.head?, t.kind ≠ .symbol .comma)
    (no_end : ∀ t ∈ rest.head?, t.kind ≠ .symbol .semicolon) :
    StopsSoon spelling selected name rest := by
  refine ⟨[], .token (.symbol .semicolon), rest, rfl, fun t mark => ?_, fun tokens same => ?_⟩
  · exact ⟨[], [name], .semicolon mark⟩
  · rw [← same] at no_dot no_comma no_end
    rw [List.nil_append, listTail, Part.andThen]
    cases tokens with
    | nil => rfl
    | cons t tokens =>
      rw [namesFrom_other name tokens (no_dot t rfl) (no_comma t rfl)]
      dsimp only
      rw [Part.map, token, if_neg (no_end t rfl)]

/-- What a list can go on with: a suffix, another name, its end, or none of these. -/
theorem listTail_cases (name : String) (tokens : List Token) :
    (∃ point t rest, tokens = point :: t :: rest ∧ selected ∧ point.kind = .symbol .dot ∧
        isSuffix t.kind) ∨
      (∃ comma t rest, tokens = comma :: t :: rest ∧ comma.kind = .symbol .comma ∧
        t.kind = .identifier) ∨
      (∃ t rest, tokens = t :: rest ∧ t.kind = .symbol .semicolon) ∨
      StopsSoon spelling selected name tokens := by
  cases tokens with
  | nil => exact Or.inr (Or.inr (Or.inr (stopsSoon_of_other name [] nofun nofun nofun)))
  | cons mark rest =>
    by_cases dot : selected ∧ mark.kind = .symbol .dot
    · by_cases goes_on : ∃ t ∈ rest.head?, isSuffix t.kind
      · obtain ⟨t, first, suffix⟩ := goes_on
        obtain ⟨rest, rfl⟩ := List.head?_eq_some_iff.mp (Option.mem_def.mp first)
        exact Or.inl ⟨mark, t, rest, rfl, dot.1, dot.2, suffix⟩
      · exact Or.inr (Or.inr (Or.inr (stopsSoon_of_dot name rest dot.1 dot.2
          fun t first suffix => goes_on ⟨t, first, suffix⟩)))
    by_cases comma : mark.kind = .symbol .comma
    · by_cases goes_on : ∃ t ∈ rest.head?, t.kind = .identifier
      · obtain ⟨t, first, ident⟩ := goes_on
        obtain ⟨rest, rfl⟩ := List.head?_eq_some_iff.mp (Option.mem_def.mp first)
        exact Or.inr (Or.inl ⟨mark, t, rest, rfl, comma, ident⟩)
      · exact Or.inr (Or.inr (Or.inr (stopsSoon_of_comma name rest comma
          fun t first ident => goes_on ⟨t, first, ident⟩)))
    by_cases semicolon : mark.kind = .symbol .semicolon
    · exact Or.inr (Or.inr (Or.inl ⟨mark, rest, rfl, semicolon⟩))
    · refine Or.inr (Or.inr (Or.inr (stopsSoon_of_other name _ ?_ ?_ ?_)))
      all_goals
        intro t first
        cases first
        assumption

theorem listTail_sound {name : String} {tokens rest : List Token} {names : List String}
    (ok : listTail spelling selected name tokens = .ok (names, rest)) :
    ∃ used, tokens = used ++ rest ∧ ListTail spelling selected name used names := by
  rcases listTail_cases name tokens with
    ⟨point, t, more, rfl, sel, dot, suffix⟩ | ⟨comma, t, more, rfl, mark, ident⟩ |
    ⟨t, more, rfl, mark⟩ | ⟨used, expected, more, rfl, -, stops⟩
  · rw [listTail_suffix name more sel dot suffix] at ok
    obtain ⟨used, rfl, text⟩ := listTail_sound ok
    exact ⟨point :: t :: used, rfl, .suffix sel dot suffix text⟩
  · rw [listTail_comma name more mark ident, Part.map] at ok
    split at ok
    · next found =>
      cases ok
      obtain ⟨used, rfl, text⟩ := listTail_sound found
      exact ⟨comma :: t :: used, rfl, .comma mark ident text⟩
    · exact nomatch ok
  · rw [listTail_semicolon name more mark] at ok
    cases ok
    exact ⟨[t], rfl, .semicolon mark⟩
  · rw [stops more rfl] at ok
    exact nomatch ok
termination_by tokens.length

theorem listTail_complete {name : String} {used : List Token} {names : List String}
    (text : ListTail spelling selected name used names) (rest : List Token) :
    listTail spelling selected name (used ++ rest) = .ok (names, rest) := by
  induction text with
  | semicolon mark => exact listTail_semicolon _ rest mark
  | suffix sel dot suffix _ ih =>
    rw [List.cons_append, List.cons_append, listTail_suffix _ _ sel dot suffix, ih]
  | comma mark ident _ ih =>
    rw [List.cons_append, List.cons_append, listTail_comma _ _ mark ident, Part.map, ih]

theorem listTail_stops {name : String} {tokens : List Token} {e : Deviation}
    (error : listTail spelling selected name tokens = .error e) :
    ∃ used, tokens = used ++ e.rest ∧
      (∀ t, e.expected.Fits t.kind →
        ∃ after names, ListTail spelling selected name (used ++ t :: after) names) ∧
      ∀ rest, rest.head? = e.rest.head? →
        listTail spelling selected name (used ++ rest) = .error ⟨e.expected, rest⟩ := by
  rcases listTail_cases name tokens with
    ⟨point, t, more, rfl, sel, dot, suffix⟩ | ⟨comma, t, more, rfl, mark, ident⟩ |
    ⟨t, more, rfl, mark⟩ | ⟨used, expected, more, rfl, fits, stops⟩
  · rw [listTail_suffix name more sel dot suffix] at error
    obtain ⟨used, split, fits, again⟩ := listTail_stops error
    refine ⟨point :: t :: used, by rw [split]; rfl, fun x fit => ?_, fun rest same => ?_⟩
    · obtain ⟨after, names, text⟩ := fits x fit
      exact ⟨after, names, .suffix sel dot suffix text⟩
    · rw [List.cons_append, List.cons_append, listTail_suffix name _ sel dot suffix, again rest same]
  · rw [listTail_comma name more mark ident, Part.map] at error
    split at error
    · exact nomatch error
    · next found =>
      cases error
      obtain ⟨used, split, fits, again⟩ := listTail_stops found
      refine ⟨comma :: t :: used, by rw [split]; rfl, fun x fit => ?_, fun rest same => ?_⟩
      · obtain ⟨after, names, text⟩ := fits x fit
        exact ⟨after, name :: names, .comma mark ident text⟩
      · rw [List.cons_append, List.cons_append, listTail_comma name _ mark ident, Part.map,
          again rest same]
  · rw [listTail_semicolon name more mark] at error
    exact nomatch error
  · cases (stops more rfl).symm.trans error
    exact ⟨used, rfl, fits, stops⟩
termination_by tokens.length

theorem listTail_recognises (name : String) :
    (listTail spelling selected name).Recognises (ListTail spelling selected name) :=
  ⟨listTail_sound, fun text rest => listTail_complete text rest, listTail_stops⟩

/-! ### Lists of names in the grammar -/

theorem namesText_of_listTail {name : String} {front used : List Token} {names : List String}
    (text : NameText spelling selected front name) (tail : ListTail spelling selected name used names) :
    ∃ ts semicolon, used = ts ++ [semicolon] ∧ semicolon.kind = .symbol .semicolon ∧
      NamesText spelling selected (front ++ ts) names := by
  induction tail generalizing front with
  | semicolon mark => exact ⟨[], _, rfl, mark, by simpa using .last text⟩
  | @suffix name point t ts names sel dot suffix _ ih =>
    obtain ⟨ts, semicolon, rfl, mark, names⟩ := ih (.suffix text sel dot suffix)
    exact ⟨point :: t :: ts, semicolon, rfl, mark, by simpa using names⟩
  | @comma name comma t ts names mark ident _ ih =>
    obtain ⟨ts, semicolon, rfl, ends, names⟩ := ih (.identifier ident)
    exact ⟨comma :: t :: ts, semicolon, rfl, ends, .more text mark names⟩

theorem listTail_of_nameText {name : String} {front used : List Token} {names : List String}
    (text : NameText spelling selected front name) (tail : ListTail spelling selected name used names) :
    ∃ t rest, front ++ used = t :: rest ∧ t.kind = .identifier ∧
      ListTail spelling selected (spelling t) rest names := by
  induction text generalizing used with
  | @identifier t ident => exact ⟨t, used, rfl, ident, tail⟩
  | suffix _ sel dot suffix ih =>
    rw [List.append_assoc]
    exact ih (.suffix sel dot suffix tail)

theorem listTail_of_namesText {front : List Token} {names : List String} {semicolon : Token}
    (text : NamesText spelling selected front names) (mark : semicolon.kind = .symbol .semicolon) :
    ∃ t rest, front ++ [semicolon] = t :: rest ∧ t.kind = .identifier ∧
      ListTail spelling selected (spelling t) rest names := by
  induction text with
  | last text => exact listTail_of_nameText text (.semicolon mark)
  | more text comma _ ih =>
    obtain ⟨t, rest, split, ident, tail⟩ := ih
    rw [List.append_assoc, List.cons_append, split]
    exact listTail_of_nameText text (.comma comma ident tail)

end VhdlFrontEnd.Outline
