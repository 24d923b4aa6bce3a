import VhdlFrontEnd.Lexeme.Basic

/-!
# Numbers

Decimal literals such as `1_000`, `3.14` and `5E2`, based literals such as `16#F.8#E1`, and
integers that a letter follows at once, as in `10ns`. A run of digits is well formed if its
underscores stand singly between digits. Main statement: a number splits its text.
-/

namespace VhdlFrontEnd.Number

/-- A character of a run of decimal digits. -/
def isDigitOrUnderscore (c : Char) : Bool := c.isDigit || c == '_'

/-- The run goes on well: after a digit it may end; an underscore needs a digit on both sides. -/
def separatedAfter (digit : Char → Bool) : (underscore : Bool) → List Char → Bool
  | underscore, [] => !underscore
  | underscore, c :: cs =>
    if c = '_' then !underscore && separatedAfter digit true cs
    else digit c && separatedAfter digit false cs

/-- A run that is not empty, of digits with single underscores between them. -/
def separated (digit : Char → Bool) (cs : List Char) : Bool := separatedAfter digit true cs

/-- The decimal digits and underscores at the front. -/
def decimals (cs : List Char) : List Char := cs.takeWhile isDigitOrUnderscore

/-- What follows the decimal digits and underscores. -/
def afterDecimals (cs : List Char) : List Char := cs.dropWhile isDigitOrUnderscore

/-- A part of a number: its characters, whether its digits are well formed, and what follows. -/
structure Part where
  text : List Char
  valid : Bool
  rest : List Char

/-- The text starts with a decimal digit. -/
def startsWithDigit (cs : List Char) : Bool := cs.head?.any Char.isDigit

/-- A point and decimals. A point that no digit follows belongs to the next token. -/
def fraction? : List Char → Option Part
  | '.' :: rest =>
    if startsWithDigit rest then
      some ⟨'.' :: decimals rest, separated Char.isDigit (decimals rest), afterDecimals rest⟩
    else none
  | _ => none

/-- The exponent of a number. -/
structure Exponent extends Part where
  negative : Bool

/-- A letter `e`, a sign or none, and decimals. Without a digit the letter is no exponent. -/
def exponent? : List Char → Option Exponent
  | e :: rest =>
    if e = 'e' ∨ e = 'E' then
      match rest with
      | '+' :: rest =>
        if startsWithDigit rest then
          some ⟨⟨e :: '+' :: decimals rest, separated Char.isDigit (decimals rest),
            afterDecimals rest⟩, false⟩
        else none
      | '-' :: rest =>
        if startsWithDigit rest then
          some ⟨⟨e :: '-' :: decimals rest, separated Char.isDigit (decimals rest),
            afterDecimals rest⟩, true⟩
        else none
      | rest =>
        if startsWithDigit rest then
          some ⟨⟨e :: decimals rest, separated Char.isDigit (decimals rest),
            afterDecimals rest⟩, false⟩
        else none
    else none
  | [] => none

/-- A number that has been read to its end: a token if it is well formed. -/
def finish (valid : Bool) (kind : TokenKind) (text rest : List Char) : Reading :=
  if valid then ⟨.token kind, text, rest⟩ else ⟨.dropped .malformedNumber, text, rest⟩

/-- The kind of a number with or without a point. -/
def kind (real : Bool) : TokenKind := if real then .real else .integer

/-- A number after its digits and its fraction; only a number with a point may have a negative
exponent. -/
def scaled (real valid : Bool) (text rest : List Char) : Reading :=
  match exponent? rest with
  | some e =>
    if e.negative && !real then ⟨.dropped .negativeExponent, text ++ e.text, e.rest⟩
    else finish (valid && e.valid) (kind real) (text ++ e.text) e.rest
  | none => finish valid (kind real) text rest

/-- A decimal number after its leading digits. -/
def decimal (digits rest : List Char) : Reading :=
  let valid := separated Char.isDigit digits
  match fraction? rest with
  | some f => scaled true (valid && f.valid) (digits ++ f.text) f.rest
  | none =>
    if (exponent? rest).isNone && rest.head?.any Text.isWordStart then
      finish valid .integerLetter digits rest
    else scaled false valid digits rest

/-- The value of the digits that stand for a base, whatever underscores there are. -/
def baseValue (digits : List Char) : Nat :=
  (digits.filter (· ≠ '_')).foldl (fun n c => 10 * n + (c.toNat - '0'.toNat)) 0

/-- The extended digits of a based number: well formed if each is a digit of the base. -/
def extended (base : Nat) (cs : List Char) : Part :=
  let digits := cs.takeWhile Text.isWordChar
  ⟨digits, separated (Text.isDigitIn base) digits, cs.dropWhile Text.isWordChar⟩

/-- A point and extended digits, or nothing. -/
def basedFraction? (base : Nat) : List Char → Option Part
  | '.' :: rest =>
    let part := extended base rest
    some { part with text := '.' :: part.text }
  | _ => none

/-- A based number whose base is out of range is reported as such, unless its exponent is
negative without a point. -/
def rebased (base : Nat) (r : Reading) : Reading :=
  if Text.isBase base || r.lexeme = .dropped .negativeExponent then r
  else { r with lexeme := .dropped .baseOutOfRange }

/-- A based number at the mark after its digits, which closes it. -/
def closed (base : Nat) (real valid : Bool) (text rest : List Char) : Reading :=
  match rest with
  | '#' :: rest => rebased base (scaled real valid (text ++ ['#']) rest)
  | rest => ⟨.dropped .missingBaseMark, text, rest⟩

/-- A based number after its base and the first mark. -/
def based (digits rest : List Char) : Reading :=
  let base := baseValue digits
  let whole := extended base rest
  let valid := separated Char.isDigit digits && whole.valid
  let text := digits ++ '#' :: whole.text
  match basedFraction? base whole.rest with
  | some f => closed base true (valid && f.valid) (text ++ f.text) f.rest
  | none => closed base false valid text whole.rest

/-- The number at the front of a text that starts with a digit. -/
def read (cs : List Char) : Reading :=
  match afterDecimals cs with
  | '#' :: rest => based (decimals cs) rest
  | rest => decimal (decimals cs) rest

theorem decimals_append (cs : List Char) : decimals cs ++ afterDecimals cs = cs :=
  List.takeWhile_append_dropWhile

theorem fraction?_append {cs : List Char} {f : Part} (h : fraction? cs = some f) :
    f.text ++ f.rest = cs := by
  unfold fraction? at h
  split at h
  · split at h
    · cases h; simp [decimals_append]
    · exact nomatch h
  · exact nomatch h

theorem exponent?_append {cs : List Char} {e : Exponent} (h : exponent? cs = some e) :
    e.text ++ e.rest = cs := by
  unfold exponent? at h
  repeat' split at h
  all_goals cases h <;> simp [decimals_append]

theorem finish_append (valid : Bool) (kind : TokenKind) (text rest : List Char) :
    (finish valid kind text rest).text ++ (finish valid kind text rest).rest = text ++ rest := by
  unfold finish; split <;> rfl

theorem scaled_append (real valid : Bool) (text rest : List Char) :
    (scaled real valid text rest).text ++ (scaled real valid text rest).rest = text ++ rest := by
  unfold scaled
  split
  · next e he =>
    rw [← exponent?_append he]
    split
    · simp
    · rw [finish_append]; simp
  · exact finish_append _ _ _ _

theorem decimal_append (digits rest : List Char) :
    (decimal digits rest).text ++ (decimal digits rest).rest = digits ++ rest := by
  unfold decimal
  dsimp only
  split
  · next f hf => rw [scaled_append, ← fraction?_append hf]; simp
  · split
    · exact finish_append _ _ _ _
    · exact scaled_append _ _ _ _

theorem extended_append (base : Nat) (cs : List Char) :
    (extended base cs).text ++ (extended base cs).rest = cs :=
  List.takeWhile_append_dropWhile

theorem basedFraction?_append {base : Nat} {cs : List Char} {f : Part}
    (h : basedFraction? base cs = some f) : f.text ++ f.rest = cs := by
  unfold basedFraction? at h
  split at h
  · cases h; simp [extended_append]
  · exact nomatch h

theorem rebased_append (base : Nat) (r : Reading) :
    (rebased base r).text ++ (rebased base r).rest = r.text ++ r.rest := by
  unfold rebased; split <;> rfl

theorem closed_append (base : Nat) (real valid : Bool) (text rest : List Char) :
    (closed base real valid text rest).text ++ (closed base real valid text rest).rest =
      text ++ rest := by
  unfold closed
  split
  · rw [rebased_append, scaled_append]; simp
  · rfl

theorem based_append (digits rest : List Char) :
    (based digits rest).text ++ (based digits rest).rest = digits ++ '#' :: rest := by
  unfold based
  dsimp only
  have hw := extended_append (baseValue digits) rest
  split
  · next f hf =>
    rw [closed_append, List.append_assoc, basedFraction?_append hf]
    simp [hw]
  · rw [closed_append]; simp [hw]

theorem read_append (cs : List Char) : (read cs).text ++ (read cs).rest = cs := by
  unfold read
  split
  · next rest h => rw [based_append, ← h, decimals_append]
  · rw [decimal_append, decimals_append]

theorem finish_text (valid : Bool) (kind : TokenKind) (text rest : List Char) :
    (finish valid kind text rest).text = text := by
  unfold finish; split <;> rfl

theorem prefix_scaled (real valid : Bool) (text rest : List Char) :
    text <+: (scaled real valid text rest).text := by
  unfold scaled
  split
  · split
    · exact List.prefix_append _ _
    · rw [finish_text]; exact List.prefix_append _ _
  · simp [finish_text]

theorem prefix_closed (base : Nat) (real valid : Bool) (text rest : List Char) :
    text <+: (closed base real valid text rest).text := by
  have rebased_text (r : Reading) : (rebased base r).text = r.text := by
    unfold rebased; split <;> rfl
  unfold closed
  split
  · rw [rebased_text]
    exact (List.prefix_append _ _).trans (prefix_scaled _ _ _ _)
  · exact List.prefix_refl _

/-- A number takes all the digits at its front. -/
theorem decimals_prefix_read (cs : List Char) : decimals cs <+: (read cs).text := by
  unfold read
  split
  · unfold based
    dsimp only
    split
    · refine List.IsPrefix.trans ?_ (prefix_closed _ _ _ _ _)
      rw [List.append_assoc]
      exact List.prefix_append _ _
    · exact (List.prefix_append _ _).trans (prefix_closed _ _ _ _ _)
  · unfold decimal
    dsimp only
    split
    · exact (List.prefix_append _ _).trans (prefix_scaled _ _ _ _)
    · split
      · simp [finish_text]
      · exact prefix_scaled _ _ _ _

end VhdlFrontEnd.Number
