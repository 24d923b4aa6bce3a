import VhdlFrontEnd.Proofs.Mark
import VhdlFrontEnd.Proofs.Number

/-!
# Readings are sound

Whatever lexeme is read, `read_sound` shows that its kind is borne out by its text. Each family
of lexemes has one such lemma, in the order in which `read` asks for them.
-/

namespace VhdlFrontEnd

/-! ### Between quotes -/

namespace Quoted

theorem paired_of_upToClose? {q : Char} {cs body rest : List Char}
    (h : upToClose? q cs = some (body, rest)) :
    ∃ inner, body = inner ++ [q] ∧ Paired q inner ∧ rest.head? ≠ some q := by
  fun_induction upToClose? q cs generalizing body rest with
  | case1 => cases h
  | case2 => cases h; exact ⟨[], rfl, .nil, by simp⟩
  | case3 cs ih =>
    obtain ⟨⟨b, r⟩, found, same⟩ := Option.map_eq_some_iff.mp h
    obtain ⟨rfl, rfl⟩ := Prod.mk.inj same
    obtain ⟨inner, rfl, paired, stops⟩ := ih found
    exact ⟨q :: q :: inner, rfl, .pair paired, stops⟩
  | case4 d cs other => cases h; exact ⟨[], rfl, .nil, by simpa using other⟩
  | case5 c cs other ih =>
    obtain ⟨⟨b, r⟩, found, same⟩ := Option.map_eq_some_iff.mp h
    obtain ⟨rfl, rfl⟩ := Prod.mk.inj same
    obtain ⟨inner, rfl, paired, stops⟩ := ih found
    exact ⟨c :: inner, rfl, .other other paired, stops⟩

theorem paired_of_upToClose?_eq_none {q : Char} {cs : List Char} (h : upToClose? q cs = none) :
    Paired q cs := by
  fun_induction upToClose? q cs with
  | case1 => exact .nil
  | case2 => cases h
  | case3 cs ih => exact .pair (ih (Option.map_eq_none_iff.mp h))
  | case4 => cases h
  | case5 c cs other ih => exact .other other (ih (Option.map_eq_none_iff.mp h))

theorem string_sound (rest : List Char) : (string rest).Sound := by
  unfold string
  split
  · next body rest found =>
    obtain ⟨inner, rfl, paired, -⟩ := paired_of_upToClose? found
    exact .token (.string paired) fun word => by simp [IsWord, TokenKind.isKeyword] at word
  · next none => exact .openString ⟨rest, rfl, paired_of_upToClose?_eq_none none⟩

/-- No basic identifier starts with a backslash. -/
theorem not_isIdentifier_backslash (cs : List Char) : ¬ Text.isIdentifier ('\\' :: cs) := by
  simp [Text.isIdentifier, show Char.isAlpha '\\' = false from by decide]

theorem extended_sound (rest : List Char) : (extended rest).Sound := by
  unfold extended
  split
  · next body rest found =>
    obtain ⟨inner, rfl, paired, -⟩ := paired_of_upToClose? found
    split
    · exact .dropped (by decide)
    · next nonempty =>
      refine .token (.extended (fun empty => nonempty (by rw [empty]; rfl)) paired) fun word => ?_
      rcases word with keyword | ⟨-, identifier⟩
      · cases keyword
      · exact absurd identifier (not_isIdentifier_backslash _)
  · exact .dropped (by decide)

theorem isSpecifier_iff {word : List Char} :
    isSpecifier word ↔ ∃ s ∈ specifiers, Text.sameIgnoringCase s.toList word := by
  simp [isSpecifier]

theorem bitString_sound {specifier : List Char} (specified : isSpecifier specifier)
    (rest : List Char) : (bitString specifier rest).Sound := by
  unfold bitString
  dsimp only
  split
  · exact .dropped (by decide)
  · next q after closes =>
    obtain rfl : q = '"' := Source.eq_of_dropWhile_ne closes
    split
    · next good =>
      have each := List.find?_eq_none.mp good
      refine .token (.bitString ⟨isSpecifier_iff.mp specified, Source.not_mem_takeWhile_ne _ _, ?_, ?_⟩)
        fun word => by simp [IsWord, TokenKind.isKeyword] at word
      · intro decimal c mem
        have := each c mem
        simp only [isBitCharacter, decimal, if_true, Bool.not_eq_true', Bool.not_eq_false,
          Bool.or_eq_true, beq_iff_eq] at this
        exact this
      · intro other c mem
        simpa [isBitCharacter, other, Text.isGraphic] using each c mem
    · exact .dropped (by simp)

end Quoted

/-! ### Words -/

theorem Keyword.sameIgnoringCase_spelling_iff {word : List Char} {k : Keyword} :
    Text.sameIgnoringCase word k.spelling.toList ↔ ofWord? word = some k := by
  have lower : ∀ k ∈ words, k.spelling.toList.map Char.toLower = k.spelling.toList := by
    decide +kernel
  rw [ofWord?_eq_some_iff, Text.sameIgnoringCase, beq_iff_eq, lower k (mem_words k)]

namespace Lexeme

theorem wordEnds_dropWhile (cs : List Char) : WordEnds (cs.dropWhile Text.isWordChar) := by
  intro c first
  have := List.head?_dropWhile_not Text.isWordChar cs
  rw [Option.mem_def.mp first] at this
  simpa using this

/-- A run of word characters that is no bit string: a keyword, an identifier or neither. -/
def plainWord (text rest : List Char) : Reading :=
  match Keyword.ofWord? text with
  | some k => ⟨.token (.keyword k), text, rest⟩
  | none =>
    match Text.identifierProblem? text with
    | none => ⟨.token .identifier, text, rest⟩
    | some problem => ⟨.dropped (.invalidIdentifier problem), text, rest⟩

theorem plainWord_sound {text rest : List Char} (nonempty : text ≠ []) (ends : WordEnds rest) :
    (plainWord text rest).Sound := by
  unfold plainWord
  split
  · next k found => exact .token (.keyword (Keyword.sameIgnoringCase_spelling_iff.mpr found)) fun _ => ends
  · next unreserved =>
    split
    · next fine =>
      have identifier := (Text.identifierProblem?_eq_none nonempty).mp fine
      refine .token (.basic ⟨identifier, fun k same => ?_⟩) fun _ => ends
      rw [Keyword.sameIgnoringCase_spelling_iff, unreserved] at same
      cases same
    · exact .dropped (by simp)

theorem word_of_quote {cs rest : List Char} (quote : cs.dropWhile Text.isWordChar = '"' :: rest) :
    word cs = if Quoted.isSpecifier (cs.takeWhile Text.isWordChar)
      then Quoted.bitString (cs.takeWhile Text.isWordChar) rest
      else plainWord (cs.takeWhile Text.isWordChar) ('"' :: rest) := by
  rw [word, quote]
  rfl

theorem word_of_other {cs : List Char} (other : (cs.dropWhile Text.isWordChar).head? ≠ some '"') :
    word cs = plainWord (cs.takeWhile Text.isWordChar) (cs.dropWhile Text.isWordChar) := by
  rw [word]
  split
  · next quote =>
    rw [quote] at other
    exact absurd rfl other
  · rfl

/-- A word is a bit string or a plain word. -/
theorem word_eq (cs : List Char) :
    (∃ rest, Quoted.isSpecifier (cs.takeWhile Text.isWordChar) ∧
      cs.dropWhile Text.isWordChar = '"' :: rest ∧
      word cs = Quoted.bitString (cs.takeWhile Text.isWordChar) rest) ∨
    word cs = plainWord (cs.takeWhile Text.isWordChar) (cs.dropWhile Text.isWordChar) := by
  by_cases quote : (cs.dropWhile Text.isWordChar).head? = some '"'
  · obtain ⟨rest, found⟩ := List.head?_eq_some_iff.mp quote
    rw [word_of_quote found, found]
    by_cases specified : Quoted.isSpecifier (cs.takeWhile Text.isWordChar)
    · exact Or.inl ⟨rest, specified, rfl, if_pos specified⟩
    · exact Or.inr (if_neg specified)
  · exact Or.inr (word_of_other quote)

theorem word_sound {c : Char} {rest : List Char} (starts : Text.isWordStart c) :
    (word (c :: rest)).Sound := by
  rcases word_eq (c :: rest) with ⟨after, specified, -, same⟩ | same <;> rw [same]
  · exact Quoted.bitString_sound specified after
  · refine plainWord_sound ?_ (wordEnds_dropWhile _)
    simp [Text.isWordChar_of_isWordStart starts]

/-! ### Apostrophes and symbols -/

theorem symbol_not_isWord {s : Symbol} {cs : List Char} : ¬ IsWord (.symbol s) cs := by
  simp [IsWord, TokenKind.isKeyword]

theorem tick_sound (rest : List Char) : (⟨.token (.symbol .tick), ['\''], rest⟩ : Reading).Sound :=
  .token (.symbol .tick) fun word => absurd word symbol_not_isWord

theorem apostrophe_sound (afterName : Bool) (rest : List Char) :
    (apostrophe afterName rest).Sound := by
  unfold apostrophe
  split
  · split
    · next literal =>
      refine .token (.character ?_) fun word => by simp [IsWord, TokenKind.isKeyword] at word
      simp only [Text.isGraphic, Bool.and_eq_true, Bool.not_eq_true'] at literal
      simp [literal.2]
    · exact tick_sound _
  · exact tick_sound _

theorem symbol_sound (c : Char) (rest : List Char) : (symbol c rest).Sound := by
  unfold symbol
  split
  · next l known =>
    dsimp only
    rw [← (Lookahead.spelling_find known rest).1]
    exact .token (.symbol _) fun word => absurd word symbol_not_isWord
  · exact .dropped (by simp)

theorem read_sound (previous? : Option TokenKind) (c : Char) (rest : List Char) :
    (read previous? c rest).Sound := by
  unfold read
  split
  · exact apostrophe_sound _ _
  split
  · exact Quoted.string_sound _
  split
  · exact Quoted.extended_sound _
  split
  · exact (Number.read_outcome _).sound
  split
  · next starts => exact word_sound starts
  · exact symbol_sound _ _

end Lexeme

end VhdlFrontEnd
