import VhdlFrontEnd.Proofs.Openers
import VhdlFrontEnd.Proofs.Pieces

/-!
# Pieces that are passed over whole

The search for openers goes its own way through a line. `first_inStep` shows that it passes over a
piece of the line whole, unless the piece is one of the few that `Plain` leaves out.
-/

namespace VhdlFrontEnd

namespace Source

variable {c x : Char} {a b body text front rest : List Char}

/-- The text is passed over whole, or no opener is found from it to the end of the line. -/
def InStep (text rest : List Char) : Prop :=
  Skipped text rest ∨ rest = [] ∧ unclosedOpener? text = none

theorem InStep.unclosedOpener? (step : InStep text rest) :
    unclosedOpener? (text ++ rest) = (unclosedOpener? rest).map (text ++ ·) := by
  rcases step with skipped | ⟨rfl, none_found⟩
  · exact skipped.unclosedOpener?
  · rw [List.append_nil, none_found, Source.unclosedOpener?]
    rfl

theorem Skipped.append (first : Skipped a (b ++ rest)) (second : Skipped b rest) :
    Skipped (a ++ b) rest := by
  generalize whole : b ++ rest = behind at first
  induction first with
  | nil => exact second
  | string unquoted _ ih =>
    rw [List.cons_append, List.append_assoc, List.cons_append]
    exact .string unquoted (ih whole)
  | comment first _ ih =>
    rw [List.cons_append, List.cons_append, List.append_assoc, List.cons_append, List.cons_append]
    exact .comment first (ih whole)
  | literal ascii _ ih => exact .literal ascii (ih whole)
  | @alone c front behind alone _ ih =>
    have same : front ++ b ++ rest = front ++ behind := by rw [List.append_assoc, whole]
    exact .alone (same ▸ alone) (ih whole)

/-! ### Quiet characters -/

/-- The character starts no literal and no comment, whatever follows it. -/
def Quiet (c : Char) : Prop := c ≠ '"' ∧ c ≠ '\'' ∧ c ≠ '-' ∧ c ≠ '/'

instance : DecidablePred Quiet := fun _ => inferInstanceAs (Decidable (_ ∧ _))

theorem Quiet.alone (quiet : Quiet c) (rest : List Char) : Alone c rest := by
  obtain ⟨quote, apostrophe, dash, slash⟩ := quiet
  refine ⟨quote, fun h => dash h.1, fun h => slash h.1, ?_⟩
  rintro ⟨x, after, same, -⟩
  exact apostrophe (List.cons.inj same).1

theorem quiet_of_all (h : text.all (decide <| Quiet ·)) : ∀ c ∈ text, Quiet c := fun c mem =>
  of_decide_eq_true (List.all_eq_true.mp h c mem)

theorem skipped_of_quiet (quiet : ∀ c ∈ text, Quiet c) (rest : List Char) : Skipped text rest := by
  induction text with
  | nil => exact .nil
  | cons c text ih =>
    obtain ⟨first, others⟩ := List.forall_mem_cons.mp quiet
    exact .alone (first.alone _) (ih others)

/-- A class of characters without the four that may start something holds quiet ones only. -/
theorem quiet_of_class {p : Char → Bool} (h : p c)
    (without : p '"' = false ∧ p '\'' = false ∧ p '-' = false ∧ p '/' = false) : Quiet c := by
  obtain ⟨quote, apostrophe, dash, slash⟩ := without
  refine ⟨?_, ?_, ?_, ?_⟩ <;> rintro rfl
  · exact nomatch quote.symm.trans h
  · exact nomatch apostrophe.symm.trans h
  · exact nomatch dash.symm.trans h
  · exact nomatch slash.symm.trans h

theorem quiet_takeWhile {p : Char → Bool} (cs : List Char)
    (without : p '"' = false ∧ p '\'' = false ∧ p '-' = false ∧ p '/' = false) :
    ∀ c ∈ cs.takeWhile p, Quiet c := fun c mem =>
  quiet_of_class (List.all_eq_true.mp List.all_takeWhile c mem) without

theorem quiet_of_not_isAscii (wide : ¬ Text.isAscii c) : Quiet c := by
  refine ⟨?_, ?_, ?_, ?_⟩ <;> rintro rfl <;> exact wide (by decide)

theorem quiet_word (cs : List Char) : ∀ c ∈ cs.takeWhile Text.isWordChar, Quiet c :=
  quiet_takeWhile cs (by decide)

theorem quiet_decimals (cs : List Char) : ∀ c ∈ Number.decimals cs, Quiet c :=
  quiet_takeWhile cs (by decide)

/-! ### Numbers -/

theorem skipped_exponent? {cs : List Char} {e : Number.Exponent} (h : Number.exponent? cs = some e) :
    Skipped e.text e.rest := by
  unfold Number.exponent? at h
  split at h
  · next letter rest =>
    split at h
    · next isE =>
      have quiet : Quiet letter := by rcases isE with rfl | rfl <;> decide
      repeat' split at h
      all_goals cases h
      · exact .alone (quiet.alone _) (.alone (Quiet.alone (by decide) _)
          (skipped_of_quiet (quiet_decimals _) _))
      · next digit =>
        -- The sign is no dash of a comment, as a digit follows it.
        refine .alone (quiet.alone _) (.alone (alone_dash fun dash => ?_)
          (skipped_of_quiet (quiet_decimals _) _))
        rw [Number.decimals_append] at dash
        rw [Number.startsWithDigit, dash] at digit
        exact absurd digit (by decide)
      · exact .alone (quiet.alone _) (skipped_of_quiet (quiet_decimals _) _)
    · cases h
  · cases h

theorem quiet_fraction? {cs : List Char} {f : Number.Part} (h : Number.fraction? cs = some f) :
    ∀ c ∈ f.text, Quiet c := by
  unfold Number.fraction? at h
  split at h
  · split at h
    · cases h
      exact List.forall_mem_cons.mpr ⟨by decide, quiet_decimals _⟩
    · exact nomatch h
  · exact nomatch h

theorem quiet_basedFraction? {base : Nat} {cs : List Char} {f : Number.Part}
    (h : Number.basedFraction? base cs = some f) : ∀ c ∈ f.text, Quiet c := by
  unfold Number.basedFraction? at h
  split at h
  · cases h
    exact List.forall_mem_cons.mpr ⟨by decide, quiet_word _⟩
  · exact nomatch h

theorem quiet_append (first : ∀ c ∈ a, Quiet c) (second : ∀ c ∈ b, Quiet c) :
    ∀ c ∈ a ++ b, Quiet c :=
  List.forall_mem_append.mpr ⟨first, second⟩

theorem skipped_finish (valid : Bool) (kind : TokenKind) (skipped : Skipped text rest) :
    Skipped (Number.finish valid kind text rest).text (Number.finish valid kind text rest).rest := by
  unfold Number.finish
  split <;> exact skipped

theorem skipped_scaled (real valid : Bool) (quiet : ∀ c ∈ text, Quiet c) (rest : List Char) :
    Skipped (Number.scaled real valid text rest).text (Number.scaled real valid text rest).rest := by
  unfold Number.scaled
  split
  · next e found =>
    have skipped : Skipped (text ++ e.text) e.rest :=
      (skipped_of_quiet quiet _).append (skipped_exponent? found)
    split
    · exact skipped
    · exact skipped_finish _ _ skipped
  · exact skipped_finish _ _ (skipped_of_quiet quiet _)

theorem skipped_decimal {digits : List Char} (quiet : ∀ c ∈ digits, Quiet c) (rest : List Char) :
    Skipped (Number.decimal digits rest).text (Number.decimal digits rest).rest := by
  unfold Number.decimal
  dsimp only
  split
  · next f found => exact skipped_scaled _ _ (quiet_append quiet (quiet_fraction? found)) _
  · split
    · exact skipped_finish _ _ (skipped_of_quiet quiet _)
    · exact skipped_scaled _ _ quiet _

theorem skipped_closed (base : Nat) (real valid : Bool) (quiet : ∀ c ∈ text, Quiet c)
    (rest : List Char) :
    Skipped (Number.closed base real valid text rest).text
      (Number.closed base real valid text rest).rest := by
  unfold Number.closed
  split
  · have scaled := skipped_scaled real valid
      (quiet_append quiet (List.forall_mem_singleton.mpr (by decide : Quiet '#')))
    unfold Number.rebased
    split <;> exact scaled _
  · exact skipped_of_quiet quiet _

theorem skipped_based {digits : List Char} (quiet : ∀ c ∈ digits, Quiet c) (rest : List Char) :
    Skipped (Number.based digits rest).text (Number.based digits rest).rest := by
  have whole : ∀ c ∈ digits ++ '#' :: (Number.extended (Number.baseValue digits) rest).text, Quiet c :=
    quiet_append quiet (List.forall_mem_cons.mpr ⟨by decide, quiet_word _⟩)
  unfold Number.based
  dsimp only
  split
  · next f found => exact skipped_closed _ _ _ (quiet_append whole (quiet_basedFraction? found)) _
  · exact skipped_closed _ _ _ whole _

theorem skipped_number (cs : List Char) : Skipped (Number.read cs).text (Number.read cs).rest := by
  unfold Number.read
  split
  · exact skipped_based (quiet_decimals cs) _
  · exact skipped_decimal (quiet_decimals cs) _

/-! ### Between quotes -/

/-- A text with paired quotes is passed over as one string after the other. -/
theorem skipped_paired (paired : Paired '"' body) (unquoted : '"' ∉ a) (rest : List Char) :
    Skipped ('"' :: (a ++ (body ++ ['"']))) rest := by
  induction paired generalizing a with
  | nil => exact .string unquoted .nil
  | @other c cs other _ ih =>
    have longer : '"' ∉ a ++ [c] := by simp [unquoted, Ne.symm other]
    simpa using ih longer
  | pair _ ih => exact .string unquoted (ih List.not_mem_nil)

theorem unclosedOpener?_paired (paired : Paired '"' body) (unquoted : '"' ∉ a) :
    unclosedOpener? ('"' :: (a ++ body)) = none := by
  induction paired generalizing a with
  | nil =>
    rw [List.append_nil]
    exact unclosedOpener?_openString unquoted
  | @other c cs other _ ih =>
    have longer : '"' ∉ a ++ [c] := by simp [unquoted, Ne.symm other]
    simpa using ih longer
  | @pair cs _ ih =>
    have next : unclosedOpener? ('"' :: cs) = none := ih List.not_mem_nil
    rw [unclosedOpener?_string unquoted, next]
    rfl

theorem inStep_string (rest : List Char) :
    InStep (Quoted.string rest).text (Quoted.string rest).rest := by
  unfold Quoted.string
  split
  · next found =>
    obtain ⟨inner, rfl, paired, -⟩ := Quoted.paired_of_upToClose? found
    exact Or.inl (skipped_paired paired List.not_mem_nil _)
  · next none_closes =>
    have paired := Quoted.paired_of_upToClose?_eq_none none_closes
    exact Or.inr ⟨rfl, unclosedOpener?_paired paired List.not_mem_nil⟩

theorem inStep_bitString {specifier : List Char} (quiet : ∀ c ∈ specifier, Quiet c)
    (rest : List Char) :
    InStep (Quoted.bitString specifier rest).text (Quoted.bitString specifier rest).rest := by
  unfold Quoted.bitString
  dsimp only
  split
  · next runs_off =>
    have all : '"' ∉ rest := by
      intro mem
      simpa using List.dropWhile_eq_nil_iff.mp runs_off _ mem
    refine Or.inr ⟨rfl, ?_⟩
    rw [(skipped_of_quiet quiet _).unclosedOpener?, unclosedOpener?_openString all]
    rfl
  · next q after closes =>
    obtain rfl : q = '"' := eq_of_dropWhile_ne closes
    have skipped : Skipped (specifier ++ '"' :: (rest.takeWhile (· ≠ '"') ++ ['"'])) after :=
      (skipped_of_quiet quiet _).append (.string (not_mem_takeWhile_ne _ _) .nil)
    rw [List.append_assoc, List.cons_append]
    split <;> exact Or.inl skipped

/-! ### Words, apostrophes and symbols -/

theorem inStep_word (cs : List Char) : InStep (Lexeme.word cs).text (Lexeme.word cs).rest := by
  rcases Lexeme.word_eq cs with ⟨after, -, -, same⟩ | same <;> rw [same]
  · exact inStep_bitString (quiet_word cs) after
  · have skipped := skipped_of_quiet (quiet_word cs) (cs.dropWhile Text.isWordChar)
    unfold Lexeme.plainWord
    split
    · exact Or.inl skipped
    · split <;> exact Or.inl skipped

/-- What a piece must not be to be passed over whole: an extended identifier; an apostrophe, or a
literal of a wider character, before what looks like a literal of one byte; `*/` before `*`. -/
structure Plain (text after : List Char) : Prop where
  unescaped : text.head? ≠ some '\\'
  apostrophe : text.getLast? = some '\'' → ¬ ByteLiteral text → ¬ ByteLiteral ('\'' :: after)
  closer : text = ['*', '/'] → after.head? ≠ some '*'

theorem skipped_apostrophe (afterName : Bool)
    (plain : Plain (Lexeme.apostrophe afterName rest).text (Lexeme.apostrophe afterName rest).rest) :
    Skipped (Lexeme.apostrophe afterName rest).text (Lexeme.apostrophe afterName rest).rest := by
  have tick : ∀ {after}, Plain ['\''] after → Skipped ['\''] after := by
    intro after plain
    refine .alone (alone_apostrophe (plain.apostrophe rfl ?_)) .nil
    rintro ⟨x, more, same, -⟩
    exact nomatch same
  unfold Lexeme.apostrophe at plain ⊢
  split at plain
  · next c after =>
    split at plain
    · next literal =>
      rw [if_pos literal]
      by_cases ascii : Text.isAscii c
      · exact .literal ascii .nil
      · have wide : ¬ ByteLiteral ['\'', c, '\''] := by
          rintro ⟨x, more, same, narrow⟩
          cases same
          exact ascii narrow
        have wide_before : ¬ ByteLiteral ('\'' :: c :: '\'' :: after) := by
          rintro ⟨x, more, same, narrow⟩
          cases same
          exact ascii narrow
        exact .alone (alone_apostrophe wide_before) (.alone ((quiet_of_not_isAscii ascii).alone _)
          (.alone (alone_apostrophe (plain.apostrophe rfl wide)) .nil))
    · next other =>
      rw [if_neg other]
      exact tick plain
  · exact tick plain

/-- The symbols that hold a character which may start something. -/
def loudSymbols : List Symbol :=
  [.tick, .blockCommentStart, .blockCommentEnd, .slash, .minus, .notEqual, .matchNotEqual,
    .rightArrow, .leftBracketArrow, .barArrow, .leftRightArrow]

theorem quiet_or_loud (s : Symbol) : (∀ c ∈ s.spelling.toList, Quiet c) ∨ s ∈ loudSymbols := by
  have each : ∀ s ∈ Symbol.all, s.spelling.toList.all (decide <| Quiet ·) ∨ s ∈ loudSymbols := by
    decide +kernel
  exact (each s (Symbol.mem_all s)).imp_left quiet_of_all

/-- A symbol is passed over unless its last character starts a comment with what follows. -/
theorem skipped_symbol (s : Symbol) {after : List Char} (tick : s ≠ .tick)
    (opener : s ≠ .blockCommentStart)
    (dash : s = .minus → after.head? ≠ some '-')
    (slash : s = .slash ∨ s = .blockCommentEnd → after.head? ≠ some '*') :
    Skipped s.spelling.toList after := by
  -- In an arrow a greater sign follows the dash, and in an inequality an equals sign the slash.
  have arrow : Skipped ['-', '>'] after :=
    .alone (alone_dash (by simp)) (skipped_of_quiet (quiet_of_all rfl) _)
  have unequal : Skipped ['/', '='] after :=
    .alone (alone_slash (by simp)) (skipped_of_quiet (quiet_of_all rfl) _)
  have then_skipped : ∀ {c text}, Quiet c → Skipped text after → Skipped (c :: text) after :=
    fun quiet skipped => .alone (quiet.alone _) skipped
  rcases quiet_or_loud s with quiet | loud
  · exact skipped_of_quiet quiet after
  · simp only [loudSymbols, List.mem_cons, List.not_mem_nil, or_false] at loud
    rcases loud with rfl | rfl | rfl | rfl | rfl | rfl | rfl | rfl | rfl | rfl | rfl
    · exact absurd rfl tick
    · exact absurd rfl opener
    · exact then_skipped (by decide) (.alone (alone_slash (slash (Or.inr rfl))) .nil)
    · exact .alone (alone_slash (slash (Or.inl rfl))) .nil
    · exact .alone (alone_dash (dash rfl)) .nil
    · exact unequal
    · exact then_skipped (by decide) unequal
    · exact arrow
    · exact then_skipped (by decide) arrow
    · exact then_skipped (by decide) arrow
    · exact then_skipped (by decide) arrow

theorem skipped_symbol_read (comment : Piece.comment? (c :: rest) = none) (quote : c ≠ '"')
    (apostrophe : c ≠ '\'')
    (plain : Plain (Lexeme.symbol c rest).text (Lexeme.symbol c rest).rest) :
    Skipped (Lexeme.symbol c rest).text (Lexeme.symbol c rest).rest := by
  obtain ⟨dashes, opener⟩ := Piece.no_comment comment
  unfold Lexeme.symbol at plain ⊢
  split at plain
  · next l known =>
    obtain ⟨spelled, stands⟩ := Lookahead.spelling_find known rest
    obtain ⟨after, cut⟩ := stands
    dsimp only at plain ⊢
    generalize (l.find rest).1 = text, (l.find rest).2 = s at spelled cut plain ⊢
    subst cut
    rw [List.drop_left, ← spelled] at plain ⊢
    refine skipped_symbol s ?_ ?_ ?_ ?_
    · rintro rfl
      exact apostrophe (List.cons.inj spelled).1.symm
    · rintro rfl
      obtain ⟨slash, rfl⟩ := List.cons.inj spelled
      exact opener ⟨slash.symm, rfl⟩
    · rintro rfl dash
      obtain ⟨first, rfl⟩ := List.cons.inj spelled
      exact dashes ⟨first.symm, dash⟩
    · rintro (rfl | rfl) star
      · obtain ⟨first, rfl⟩ := List.cons.inj spelled
        exact opener ⟨first.symm, star⟩
      · exact plain.closer rfl star
  · next unknown =>
    have quiet : Quiet c := by
      refine ⟨quote, apostrophe, ?_, ?_⟩ <;> rintro rfl
      · exact nomatch unknown
      · exact nomatch unknown
    exact .alone (quiet.alone _) .nil

/-! ### Pieces -/

theorem extended_text (rest : List Char) : (Quoted.extended rest).text.head? = some '\\' := by
  unfold Quoted.extended
  repeat' split
  all_goals rfl

theorem inStep_read (previous? : Option TokenKind) (comment : Piece.comment? (c :: rest) = none)
    (plain : Plain (Lexeme.read previous? c rest).text (Lexeme.read previous? c rest).rest) :
    InStep (Lexeme.read previous? c rest).text (Lexeme.read previous? c rest).rest := by
  unfold Lexeme.read at plain ⊢
  split at plain
  · next apostrophe =>
    rw [if_pos apostrophe]
    exact Or.inl (skipped_apostrophe _ plain)
  next apostrophe =>
  rw [if_neg apostrophe]
  split at plain
  · next quote =>
    rw [if_pos quote]
    exact inStep_string rest
  next quote =>
  rw [if_neg quote]
  split at plain
  · exact absurd (extended_text rest) plain.unescaped
  next backslash =>
  rw [if_neg backslash]
  split at plain
  · next digit =>
    rw [if_pos digit]
    exact Or.inl (skipped_number _)
  next digit =>
  rw [if_neg digit]
  split at plain
  · next starts =>
    rw [if_pos starts]
    exact inStep_word _
  · next starts =>
    rw [if_neg starts]
    exact Or.inl (skipped_symbol_read comment quote apostrophe plain)

theorem inStep_gap {sort : PieceSort} (gap : Gap sort text rest) (closes : sort ≠ .openComment) :
    InStep text rest := by
  cases gap with
  | blanks blank =>
    have quiet : ∀ c ∈ text, Quiet c := fun c mem =>
      quiet_of_class (blank c mem) (by decide)
    exact Or.inl (skipped_of_quiet quiet rest)
  | lineComment => exact Or.inr ⟨rfl, unclosedOpener?_lineComment _⟩
  | blockComment first => exact Or.inl (.comment first .nil)
  | openComment => exact absurd rfl closes

/-- A piece that is plain and opens no comment is passed over whole. -/
theorem first_inStep (previous? : Option TokenKind) (c : Char) (rest : List Char)
    (plain : Plain (Piece.first previous? c rest).1.text (Piece.first previous? c rest).2)
    (closes : (Piece.first previous? c rest).1.sort ≠ .openComment) :
    InStep (Piece.first previous? c rest).1.text (Piece.first previous? c rest).2 := by
  rcases Piece.first_cases previous? c rest with gap | ⟨comment, same⟩
  · exact inStep_gap gap closes
  · rw [same] at plain ⊢
    exact inStep_read previous? comment plain

end Source

end VhdlFrontEnd
