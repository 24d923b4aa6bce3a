import VhdlFrontEnd.Lexeme.Basic

/-!
# Literals between quotes

String literals, extended identifiers and bit strings. In a string literal a doubled quote stands
for one quote, in an extended identifier a doubled backslash for one backslash. Main statements:
each reading splits its text, and a text that was quoted by doubling is read back whole.
-/

namespace VhdlFrontEnd.Quoted

/-- The text up to and with the mark `q` that closes it, and what follows. A doubled mark closes
nothing. -/
def upToClose? (q : Char) : List Char → Option (List Char × List Char)
  | [] => none
  | c :: cs =>
    if c = q then
      match cs with
      | [] => some ([c], [])
      | d :: cs =>
        if d = q then (upToClose? q cs).map fun (body, rest) => (c :: d :: body, rest)
        else some ([c], d :: cs)
    else (upToClose? q cs).map fun (body, rest) => (c :: body, rest)

/-- The text with every mark `q` doubled. -/
def doubled (q : Char) (cs : List Char) : List Char :=
  cs.flatMap fun c => if c = q then [c, c] else [c]

/-- A string literal after its opening quote. One that is not closed on its line is reported and
kept. -/
def string (rest : List Char) : Reading :=
  match upToClose? '"' rest with
  | some (body, rest) => ⟨.token .string, '"' :: body, rest⟩
  | none => ⟨.faulty .string .unterminatedString, '"' :: rest, []⟩

/-- An extended identifier after its opening backslash. One that is empty or not closed on its
line is dropped. -/
def extended (rest : List Char) : Reading :=
  match upToClose? '\\' rest with
  | some (body, rest) =>
    if body = ['\\'] then ⟨.dropped .emptyExtended, '\\' :: body, rest⟩
    else ⟨.token .identifier, '\\' :: body, rest⟩
  | none => ⟨.dropped .unterminatedExtended, '\\' :: rest, []⟩

/-- The base specifiers of bit strings. -/
def specifiers : List String := ["b", "o", "x", "d", "ub", "uo", "ux", "sb", "so", "sx"]

/-- The word is a base specifier, in any case. -/
def isSpecifier (word : List Char) : Bool :=
  specifiers.any fun s => Text.sameIgnoringCase s.toList word

/-- The characters that a bit string may hold: digits and underscores if it is decimal, and else
any graphic character, so that metavalues pass. -/
def isBitCharacter (decimal : Bool) (c : Char) : Bool :=
  if decimal then c.isDigit || c == '_' else Text.isGraphic c

/-- A bit string after its specifier and the opening quote. -/
def bitString (specifier rest : List Char) : Reading :=
  let body := rest.takeWhile (· ≠ '"')
  match rest.dropWhile (· ≠ '"') with
  | [] => ⟨.dropped .unterminatedBitString, specifier ++ '"' :: rest, []⟩
  | q :: after =>
    let text := specifier ++ '"' :: body ++ [q]
    let decimal := Text.sameIgnoringCase specifier ['d']
    match body.find? fun c => !isBitCharacter decimal c with
    | none => ⟨.token .bitString, text, after⟩
    | some c => ⟨.dropped (.bitStringCharacter c), text, after⟩

theorem upToClose?_append {q : Char} {cs body rest : List Char}
    (h : upToClose? q cs = some (body, rest)) : body ++ rest = cs := by
  fun_induction upToClose? q cs generalizing body rest with
  | case1 => exact nomatch h
  | case2 => cases h; rfl
  | case3 cs ih =>
    obtain ⟨⟨b, r⟩, hr, he⟩ := Option.map_eq_some_iff.mp h
    cases he
    rw [← ih hr]; rfl
  | case4 => cases h; rfl
  | case5 c cs _ ih =>
    obtain ⟨⟨b, r⟩, hr, he⟩ := Option.map_eq_some_iff.mp h
    cases he
    rw [← ih hr]; rfl

theorem string_append (rest : List Char) :
    (string rest).text ++ (string rest).rest = '"' :: rest := by
  unfold string
  split
  · next h => simp [upToClose?_append h]
  · simp

theorem extended_append (rest : List Char) :
    (extended rest).text ++ (extended rest).rest = '\\' :: rest := by
  unfold extended
  split
  · next h => split <;> simp [upToClose?_append h]
  · simp

theorem bitString_append (specifier rest : List Char) :
    (bitString specifier rest).text ++ (bitString specifier rest).rest =
      specifier ++ '"' :: rest := by
  unfold bitString
  dsimp only
  have whole := List.takeWhile_append_dropWhile (p := fun d : Char => decide (d ≠ '"')) (l := rest)
  split
  · simp
  · next q after h =>
    rw [h] at whole
    split <;> simpa using whole

/-- A doubled text and the closing mark are read back whole, unless another mark follows. -/
theorem upToClose?_doubled (q : Char) (body rest : List Char) (h : rest.head? ≠ some q) :
    upToClose? q (doubled q body ++ q :: rest) = some (doubled q body ++ [q], rest) := by
  induction body with
  | nil =>
    cases rest with
    | nil => simp [doubled, upToClose?]
    | cons d rest =>
      have : d ≠ q := by simpa using h
      simp [doubled, upToClose?, this]
  | cons c body ih =>
    by_cases hc : c = q
    · subst hc
      have : doubled c (c :: body) = c :: c :: doubled c body := by simp [doubled]
      rw [this]
      simp [upToClose?, ih]
    · have : doubled q (c :: body) = c :: doubled q body := by simp [doubled, hc]
      rw [this, List.cons_append, upToClose?.eq_def]
      simp [hc, ih]

end VhdlFrontEnd.Quoted
