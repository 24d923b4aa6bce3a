import VhdlFrontEnd.Proofs.LongestMatch
import VhdlFrontEnd.Proofs.NumberReading
import VhdlFrontEnd.Proofs.Run

/-!
# Words

The rules for words can be asked of their bytes: a keyword is looked up in a buffer of bytes
(`inBuffer?_eq_ofWord?`), and an identifier is known by its bytes (`isIdentifierInBytes_eq`). By these rules a
word becomes a keyword, an identifier or a report (`words_classified`).
-/

namespace VhdlFrontEnd

/-! ### The bytes of a word -/

namespace Text

/-- The bytes of a text in UTF-8. -/
def bytes (cs : List Char) : List UInt8 := cs.flatMap String.utf8EncodeChar

theorem bytes_append (front back : List Char) : bytes (front ++ back) = bytes front ++ bytes back :=
  List.flatMap_append

theorem bytes_cons (c : Char) (cs : List Char) : bytes (c :: cs) = String.utf8EncodeChar c ++ bytes cs :=
  List.flatMap_cons

def isLetterByte (b : UInt8) : Bool := (0x41 ≤ b && b ≤ 0x5a) || (0x61 ≤ b && b ≤ 0x7a)

def isWordByte (b : UInt8) : Bool := isLetterByte b || (0x30 ≤ b && b ≤ 0x39) || b == 0x5f

/-- A capital letter becomes small; any other byte stays. -/
def lowerByte (b : UInt8) : UInt8 := if 0x41 ≤ b && b ≤ 0x5a then b + 0x20 else b

/-- The rules for identifiers, asked of the bytes of a word. -/
def isIdentifierInBytes (word : List Char) : Bool :=
  (bytes word).head?.any isLetterByte && (bytes word).getLast? != some 0x5f && (bytes word).all isWordByte &&
    !hasDoubledUnderscore word

/-- The byte of a character that has one. -/
def toByte (c : Char) : UInt8 := UInt8.ofNat c.toNat

variable {c : Char} {word : List Char}

theorem isAscii_iff : isAscii c ↔ c.val.toNat ≤ 0x7f := by
  rw [isAscii, decide_eq_true_iff]
  exact Nat.lt_succ_iff

/-- Functions that agree on the first 128 characters agree on every ASCII character. -/
theorem eq_of_isAscii {α : Type} {f g : Char → α} (each : ∀ n < 128, f (Char.ofNat n) = g (Char.ofNat n))
    (c : Char) (ascii : isAscii c) : f c = g c := by
  simpa using each c.toNat (of_decide_eq_true ascii)

theorem isLetterByte_toByte (ascii : isAscii c) : isLetterByte (toByte c) = c.isAlpha := by
  apply eq_of_isAscii _ c ascii
  decide +kernel

theorem isWordByte_toByte (ascii : isAscii c) : isWordByte (toByte c) = isWordChar c := by
  apply eq_of_isAscii _ c ascii
  decide +kernel

theorem lowerByte_toByte (ascii : isAscii c) : lowerByte (toByte c) = toByte c.toLower := by
  apply eq_of_isAscii _ c ascii
  decide +kernel

theorem toByte_beq_underscore (ascii : isAscii c) : (toByte c == 0x5f) = (c == '_') := by
  apply eq_of_isAscii _ c ascii
  decide +kernel

theorem toByte_lt (ascii : isAscii c) : toByte c < 0x80 := by
  have small : c.toNat < 0x80 := of_decide_eq_true ascii
  rw [toByte, UInt8.lt_iff_toNat_lt, UInt8.toNat_ofNat_of_lt' (Nat.lt_trans small (by decide))]
  exact small

theorem ofNat_toByte (ascii : isAscii c) : Char.ofNat (toByte c).toNat = c := by
  apply eq_of_isAscii (g := id) _ c ascii
  decide +kernel

theorem toByte_inj {d : Char} (ascii : isAscii c) (ascii' : isAscii d) (same : toByte c = toByte d) : c = d := by
  rw [← ofNat_toByte ascii, same, ofNat_toByte ascii']

theorem utf8EncodeChar_of_isAscii (ascii : isAscii c) : String.utf8EncodeChar c = [toByte c] := by
  rw [String.utf8EncodeChar, if_pos (isAscii_iff.mp ascii)]
  rfl

/-- No byte of a character that is not ASCII is one of an ASCII character. -/
theorem not_lt_of_mem_utf8EncodeChar (wide : ¬ isAscii c) : ∀ b ∈ String.utf8EncodeChar c, ¬ b < 0x80 := by
  have large : ¬ c.val.toNat ≤ 0x7f := fun small => wide (isAscii_iff.mpr small)
  have byte {n : Nat} (low : 0x80 ≤ n) (high : n < 0x100) : ¬ UInt8.ofNat n < 0x80 := by
    rw [UInt8.lt_iff_toNat_lt, UInt8.toNat_ofNat_of_lt' high]
    exact Nat.not_lt_of_le low
  rw [String.utf8EncodeChar, if_neg large]
  split
  · simp only [List.forall_mem_cons]
    exact ⟨byte (by omega) (by omega), byte (by omega) (by omega), nofun⟩
  · split
    · simp only [List.forall_mem_cons]
      exact ⟨byte (by omega) (by omega), byte (by omega) (by omega), byte (by omega) (by omega), nofun⟩
    · simp only [List.forall_mem_cons]
      exact ⟨byte (by omega) (by omega), byte (by omega) (by omega), byte (by omega) (by omega),
        byte (by omega) (by omega), nofun⟩

theorem utf8EncodeChar_of_not_isAscii (wide : ¬ isAscii c) :
    ∃ b bs, String.utf8EncodeChar c = b :: bs ∧ ¬ b < 0x80 := by
  have some_byte : 0 < (String.utf8EncodeChar c).length := by
    rw [String.length_utf8EncodeChar]
    exact c.utf8Size_pos
  obtain ⟨b, bs, encoded⟩ := List.exists_cons_of_length_pos some_byte
  exact ⟨b, bs, encoded, not_lt_of_mem_utf8EncodeChar wide b (encoded ▸ List.mem_cons_self)⟩

theorem lt_of_isWordByte {b : UInt8} (word : isWordByte b) : b < 0x80 := by
  have each : ∀ n < 256, isWordByte (UInt8.ofNat n) → UInt8.ofNat n < 0x80 := by decide +kernel
  have here := each b.toNat b.toNat_lt
  rw [UInt8.ofNat_toNat] at here
  exact here word

theorem isAscii_of_isWordChar (word : isWordChar c) : isAscii c := by
  rw [isWordChar, Char.isAlphanum, Bool.or_eq_true, Bool.or_eq_true, Number.isAlpha_iff_toNat, Char.isDigit_iff_toNat,
    beq_iff_eq] at word
  rcases word with (letter | digit) | rfl
  · rw [isAscii, decide_eq_true_iff]
    omega
  · rw [isAscii, decide_eq_true_iff]
    have nine : '9'.toNat = 57 := rfl
    omega
  · rfl

theorem isAscii_toLower (c : Char) : isAscii c.toLower = isAscii c := by
  by_cases ascii : isAscii c
  · apply eq_of_isAscii _ c ascii
    decide +kernel
  · have same : c.toLower = c := dif_neg fun upper => ascii (isAscii_iff.mpr
      ((UInt32.le_iff_toNat_le.mp upper.2).trans (by decide)))
    rw [same]

theorem all_utf8EncodeChar (c : Char) : (String.utf8EncodeChar c).all (· < 0x80) = isAscii c := by
  by_cases ascii : isAscii c
  · rw [utf8EncodeChar_of_isAscii ascii, ascii]
    simpa using toByte_lt ascii
  · obtain ⟨b, bs, bytes, high⟩ := utf8EncodeChar_of_not_isAscii ascii
    rw [bytes, eq_false_of_ne_true ascii, List.all_cons, decide_eq_false high, Bool.false_and]

theorem all_isWordByte_utf8EncodeChar (c : Char) : (String.utf8EncodeChar c).all isWordByte = isWordChar c := by
  by_cases ascii : isAscii c
  · rw [utf8EncodeChar_of_isAscii ascii, List.all_cons, isWordByte_toByte ascii, List.all_nil, Bool.and_true]
  · obtain ⟨b, bs, bytes, high⟩ := utf8EncodeChar_of_not_isAscii ascii
    rw [bytes, List.all_cons, eq_false_of_ne_true fun word => high (lt_of_isWordByte word), Bool.false_and]
    exact (eq_false_of_ne_true fun word => ascii (isAscii_of_isWordChar word)).symm

theorem bytes_of_ascii (ascii : ∀ c ∈ word, isAscii c) : bytes word = word.map toByte := by
  induction word with
  | nil => rfl
  | cons c word ih =>
    obtain ⟨first, others⟩ := List.forall_mem_cons.mp ascii
    rw [bytes_cons, utf8EncodeChar_of_isAscii first, ih others]
    rfl

theorem isIdentifierInBytes_eq (word : List Char) : isIdentifierInBytes word = isIdentifier word := by
  have all_bytes : (bytes word).all isWordByte = word.all isWordChar := by
    rw [bytes, List.all_flatMap]
    exact congrArg word.all (funext all_isWordByte_utf8EncodeChar)
  rw [isIdentifierInBytes, isIdentifier, all_bytes]
  by_cases good : word.all isWordChar
  · have ascii : ∀ c ∈ word, isAscii c := fun c mem => isAscii_of_isWordChar (List.all_eq_true.mp good c mem)
    have first : (bytes word).head?.any isLetterByte = word.head?.any Char.isAlpha := by
      rw [bytes_of_ascii ascii, List.head?_map, Option.any_map]
      cases head : word.head? with
      | none => rfl
      | some c => exact isLetterByte_toByte (ascii c (List.mem_of_head? head))
    have last : ((bytes word).getLast? != some 0x5f) = (word.getLast? != some '_') := by
      rw [bytes_of_ascii ascii, List.getLast?_map]
      cases last : word.getLast? with
      | none => rfl
      | some c => exact congrArg (!·) (toByte_beq_underscore (ascii c (List.mem_of_getLast? last)))
    rw [first, last]
    ac_rfl
  · rw [eq_false_of_ne_true good, Bool.and_false, Bool.and_false, Bool.false_and, Bool.false_and]

end Text

/-! ### The buffer for keywords -/

namespace Keyword

/-- The keyword that is found for a word: its bytes go to the front of a buffer as long as the longest
keyword, and are made small there. A word that is too long for it, or not ASCII, is not looked up. -/
def inBuffer? (word : List Char) : Option Keyword :=
  let text := Text.bytes word
  if maxLength < text.length || !text.all (· < 0x80) then none
  else
    let buffer := text.map Text.lowerByte ++ List.replicate (maxLength - text.length) 0
    (String.fromUTF8? (buffer.take text.length).toByteArray).bind fun key => table.lookup key.toList

theorem length_spelling_le (k : Keyword) : k.spelling.toList.length ≤ maxLength := by
  have each : ∀ k ∈ words, k.spelling.toList.length ≤ maxLength := by decide +kernel
  exact each k (mem_words k)

theorem isAscii_spelling (k : Keyword) : ∀ c ∈ k.spelling.toList, Text.isAscii c := by
  have each : ∀ k ∈ words, k.spelling.toList.all Text.isAscii := by decide +kernel
  exact List.all_eq_true.mp (each k (mem_words k))

theorem fits_of_ofWord? {word : List Char} {k : Keyword} (found : ofWord? word = some k) :
    (∀ c ∈ word, Text.isAscii c) ∧ word.length ≤ maxLength := by
  have spells := ofWord?_eq_some_iff.mp found
  constructor
  · intro c mem
    have lower : Text.isAscii c.toLower := by
      refine isAscii_spelling k _ ?_
      rw [← spells]
      exact List.mem_map_of_mem mem
    exact Text.isAscii_toLower c ▸ lower
  · rw [← List.length_map Char.toLower, spells]
    exact length_spelling_le k

/-- What the buffer holds of a word in ASCII is the word in lower case. -/
theorem fromUTF8?_lowered {word : List Char} (ascii : ∀ c ∈ word, Text.isAscii c) :
    String.fromUTF8? ((Text.bytes word).map Text.lowerByte).toByteArray =
      some (String.ofList (word.map Char.toLower)) := by
  have lowered : (Text.bytes word).map Text.lowerByte = Text.bytes (word.map Char.toLower) := by
    rw [Text.bytes_of_ascii ascii, Text.bytes_of_ascii ?_, List.map_map, List.map_map]
    · exact List.map_congr_left fun c mem => Text.lowerByte_toByte (ascii c mem)
    · intro c mem
      obtain ⟨d, inside, rfl⟩ := List.mem_map.mp mem
      rw [Text.isAscii_toLower]
      exact ascii d inside
  rw [lowered]
  exact dif_pos ByteArray.isValidUTF8_utf8Encode

/-- The buffer is no limit: what is looked up in it is what is looked up in lower case. -/
theorem inBuffer?_eq_ofWord? (word : List Char) : inBuffer? word = ofWord? word := by
  have all_ascii : (Text.bytes word).all (· < 0x80) = word.all Text.isAscii := by
    rw [Text.bytes, List.all_flatMap]
    exact congrArg word.all (funext Text.all_utf8EncodeChar)
  rw [inBuffer?, all_ascii]
  split
  · next cut =>
    refine (Option.eq_none_iff_forall_ne_some.mpr fun k found => ?_).symm
    obtain ⟨ascii, short⟩ := fits_of_ofWord? found
    rw [Text.bytes_of_ascii ascii, List.length_map, List.all_eq_true.mpr ascii] at cut
    simp [Nat.not_lt_of_le short] at cut
  · next uncut =>
    rw [Bool.or_eq_true, not_or, Bool.not_eq_true', Bool.not_eq_false] at uncut
    have ascii := List.all_eq_true.mp uncut.2
    have front (after : List UInt8) :
        ((Text.bytes word).map Text.lowerByte ++ after).take (Text.bytes word).length =
          (Text.bytes word).map Text.lowerByte := List.take_left' (List.length_map _)
    dsimp only
    rw [front, fromUTF8?_lowered ascii, Option.bind_some, String.toList_ofList, ofWord?]

end Keyword

/-! ### Words of a line -/

/-- The word stands in front of `rest` and goes no further. It starts with no digit, and is no base specifier
in front of a quote. -/
structure WordBefore (word rest : List Char) : Prop where
  starts : ∃ c ∈ word.head?, Text.isWordStart c
  chars : ∀ c ∈ word, Text.isWordChar c
  ends : WordEnds rest
  no_bits : rest.head? = some '"' → ¬ Quoted.isSpecifier word

section

variable {word rest before : List Char}

theorem Lexeme.word_of_before (stands : WordBefore word rest) : Lexeme.word (word ++ rest) = plainWord word rest := by
  have stop : ∀ c ∈ rest.head?, Text.isWordChar c = false := fun c first => eq_false_of_ne_true (stands.ends c first)
  have whole := List.takeWhile_eq_self_iff.mpr stands.chars
  have front : (word ++ rest).takeWhile Text.isWordChar = word := by
    rw [Source.takeWhile_append_of_stop stop, whole]
  have behind : (word ++ rest).dropWhile Text.isWordChar = rest := by
    rw [Source.dropWhile_append_of_stop stop, List.dropWhile_eq_nil_iff.mpr stands.chars, List.nil_append]
  by_cases quote : rest.head? = some '"'
  · obtain ⟨inside, rfl⟩ := List.head?_eq_some_iff.mp quote
    rw [word_of_quote behind, front, if_neg (stands.no_bits quote)]
  · have other : ((word ++ rest).dropWhile Text.isWordChar).head? ≠ some '"' := by rwa [behind]
    rw [word_of_other other, front, behind]

theorem Lexeme.text_plainWord (word rest : List Char) :
    (plainWord word rest).text = word ∧ (plainWord word rest).rest = rest := by
  unfold plainWord
  split
  · exact ⟨rfl, rfl⟩
  · split <;> exact ⟨rfl, rfl⟩

theorem Piece.first_of_word (previous? : Option TokenKind) {c : Char} {more : List Char} (start : Text.isWordStart c) :
    first previous? c more =
      (⟨.lexeme (Lexeme.word (c :: more)).lexeme, (Lexeme.word (c :: more)).text⟩, (Lexeme.word (c :: more)).rest) := by
  have other : ∀ d : Char, Text.isWordStart d = false → c ≠ d := by
    rintro d no_start rfl
    exact absurd start (by simp [no_start])
  have ink : ¬ Text.isBlank c := by
    simp [Text.isBlank, other, Text.isWordStart]
  have no_digit : ¬ c.isDigit := by
    rw [Text.isWordStart, Bool.or_eq_true] at start
    rcases start with letter | underscore
    · simp [Number.isDigit_of_isAlpha letter]
    · rw [beq_iff_eq.mp underscore]
      decide
  rw [first_of_ink previous? ink (other _ rfl) (other _ rfl), Lexeme.read, if_neg (other _ rfl),
    if_neg (other _ rfl), if_neg (other _ rfl), if_neg no_digit, if_pos start]

theorem Source.piece_of_word {s : Source} {l : Located} (scanned : l ∈ s.scan)
    (stands : l.StandsAt s before (word ++ rest)) (is_word : WordBefore word rest) :
    l.piece = ⟨.lexeme (Lexeme.plainWord word rest).lexeme, word⟩ := by
  obtain ⟨earlier, later, split⟩ := List.append_of_mem scanned
  obtain ⟨line, front, c, more, mem, text, start, read⟩ := scanLines_split split
  obtain ⟨⟨other, found, -, other_text⟩, offset, -⟩ := stands
  obtain rfl : line = other := Option.some.inj ((Source.mem_codeLines.mp mem).1.symm.trans found)
  have long : Text.byteLength before = Text.byteLength front := by
    rw [← offset, start]
    exact Nat.zero_add _
  -- What stands in front of the piece is fixed by its length, and so is what stands behind it.
  obtain ⟨-, here⟩ := Text.append_inj_of_byteLength (other_text.symm.trans text) long
  have starts : Text.isWordStart c := by
    obtain ⟨d, first, starts⟩ := is_word.starts
    obtain ⟨others, rfl⟩ := List.head?_eq_some_iff.mp first
    exact (List.cons.inj here).1 ▸ starts
  rw [Piece.first_of_word _ starts, ← here, Lexeme.word_of_before is_word, (Lexeme.text_plainWord word rest).1] at read
  exact read.symm

/-- What becomes of a word: a token that spells it, for the keyword that it is or else for an identifier; or
nothing but a report of the rule that it breaks. -/
inductive Located.ReadsWord (s : Source) (l : Located) (word : List Char) : Prop
  | keyword {k t} : Keyword.inBuffer? word = some k → l.token? = some t → t.kind = .keyword k →
      s.spelling t = word → s.lexicalReports.filter (·.position == l.start.position) = [] → ReadsWord s l word
  | identifier {t} : Keyword.inBuffer? word = none → Text.isIdentifierInBytes word → l.token? = some t →
      t.kind = .identifier → s.spelling t = word →
      s.lexicalReports.filter (·.position == l.start.position) = [] → ReadsWord s l word
  | dropped {problem d} : Keyword.inBuffer? word = none → ¬ Text.isIdentifierInBytes word →
      Text.identifierProblem? word = some problem → l.token? = none → d.code? = some .invalidIdentifier →
      d.span = ⟨l.start.position, Text.width s.scanTabWidth word⟩ → d.helps = [problem.message] →
      s.lexicalReports.filter (·.position == l.start.position) = [d] → ReadsWord s l word

theorem Located.readsWord_of_piece {s : Source} {l : Located} (scanned : l ∈ s.scan) (nonempty : word ≠ [])
    (piece : l.piece = ⟨.lexeme (Lexeme.plainWord word rest).lexeme, word⟩) : l.ReadsWord s word := by
  obtain ⟨_, _, _, stands⟩ := Source.stands_of_mem_scan scanned
  have spelled {t : Token} (given : l.token? = some t) : s.spelling t = word := by
    rw [spelling_of_stands stands given, piece]
  have reports := Source.filter_position_reports scanned
  rw [Lexeme.plainWord] at piece
  split at piece
  · next k found =>
    obtain ⟨t, given, kind⟩ : ∃ t, l.token? = some t ∧ t.kind = .keyword k := ⟨_, by rw [token?, piece]; rfl, rfl⟩
    rw [← Keyword.inBuffer?_eq_ofWord?] at found
    exact .keyword found given kind (spelled given) (reports.trans (by rw [report?, piece]; rfl))
  · next unreserved =>
    rw [← Keyword.inBuffer?_eq_ofWord?] at unreserved
    split at piece
    · next fine =>
      rw [Text.identifierProblem?_eq_none nonempty, ← Text.isIdentifierInBytes_eq] at fine
      obtain ⟨t, given, kind⟩ : ∃ t, l.token? = some t ∧ t.kind = .identifier := ⟨_, by rw [token?, piece]; rfl, rfl⟩
      exact .identifier unreserved fine given kind (spelled given) (reports.trans (by rw [report?, piece]; rfl))
    · next problem broken =>
      have no_identifier : ¬ Text.isIdentifierInBytes word := by
        rw [Text.isIdentifierInBytes_eq, ← Text.identifierProblem?_eq_none nonempty, broken]
        exact Option.some_ne_none problem
      have columns : l.stop.column - l.start.column = Text.width s.scanTabWidth word := by
        rw [stands.stop, piece]
        exact Nat.add_sub_cancel_left _ _
      refine .dropped unreserved no_identifier broken (by rw [token?, piece]; rfl) ?_ ?_ ?_
        (reports.trans (by rw [report?, piece]; rfl))
      · rfl
      · exact congrArg _ columns
      · rfl

end

/-- A word is looked up under the spellings of the keywords in any case; the buffer makes no difference. A word
that is not empty has no problem exactly if its bytes are those of an identifier. Where a word of a line of code
stands, it is read to its end: as a keyword, else as an identifier, else with a report of its problem. -/
theorem words_classified :
    (∀ word k, Keyword.inBuffer? word = some k ↔
      ∃ entry ∈ Keyword.table, entry.2 = k ∧ Text.sameIgnoringCase word entry.1) ∧
    (∀ word, Keyword.ofWord? word = Keyword.inBuffer? word) ∧
    (∀ word ≠ [], Text.identifierProblem? word = none ↔ Text.isIdentifierInBytes word) ∧
    ∀ s : Source, ∀ l ∈ s.scan, ∀ before word rest, l.StandsAt s before (word ++ rest) → WordBefore word rest →
      s.tokenize = .ok (s.allTokens, s.lexicalReports) ∧ l.piece.text = word ∧ l.ReadsWord s word := by
  refine ⟨fun word k => ?_, fun word => (Keyword.inBuffer?_eq_ofWord? word).symm, fun word nonempty => ?_, ?_⟩
  · rw [Keyword.inBuffer?_eq_ofWord?, ← Keyword.sameIgnoringCase_spelling_iff]
    constructor
    · exact fun same => ⟨_, List.mem_map_of_mem (Keyword.mem_words k), rfl, same⟩
    · rintro ⟨_, mem, rfl, same⟩
      obtain ⟨j, -, rfl⟩ := List.mem_map.mp mem
      exact same
  · rw [Text.isIdentifierInBytes_eq]
    exact Text.identifierProblem?_eq_none nonempty
  · intro s l scanned before word rest stands is_word
    have piece := Source.piece_of_word scanned stands is_word
    have nonempty : word ≠ [] := by
      rintro rfl
      obtain ⟨c, first, -⟩ := is_word.starts
      exact nomatch first
    obtain ⟨line, found, -⟩ := stands.line
    have tokenized := Source.tokenize_eq (Source.lineCount_pos_of_get? found)
    exact ⟨tokenized, congrArg Piece.text piece, l.readsWord_of_piece scanned nonempty piece⟩

/-- A word with two underscores in a row is no keyword and no identifier, and goes no further than they do. -/
theorem words_classified_in_line :
    Keyword.inBuffer? "bEGIN".toList = some .begin ∧
    (Text.identifierProblem? "a__b".toList = none ↔ Text.isIdentifierInBytes "a__b".toList) ∧
    ∃ l ∈ (Source.mk (.ofList [⟨.code, "a__b;".toList⟩]) 1).scan,
      l.StandsAt (.mk (.ofList [⟨.code, "a__b;".toList⟩]) 1) [] ("a__b".toList ++ [';']) ∧
      WordBefore "a__b".toList [';'] ∧ l.token? = none ∧
      l.ReadsWord (.mk (.ofList [⟨.code, "a__b;".toList⟩]) 1) "a__b".toList := by
  obtain ⟨buffer, -, identifiers, lines⟩ := words_classified
  refine ⟨(buffer _ _).mpr ⟨("begin".toList, .begin), by decide +kernel, rfl, by decide⟩,
    identifiers _ (by decide), ?_⟩
  have scanned : (⟨⟨.lexeme (.dropped (.invalidIdentifier .doubledUnderscore)), "a__b".toList⟩, ⟨0, 0, 1⟩,
      ⟨0, 4, 5⟩⟩ : Located) ∈ (Source.mk (.ofList [⟨.code, "a__b;".toList⟩]) 1).scan := by
    decide +kernel
  have stands : Located.StandsAt (.mk (.ofList [⟨.code, "a__b;".toList⟩]) 1)
      ⟨⟨.lexeme (.dropped (.invalidIdentifier .doubledUnderscore)), "a__b".toList⟩, ⟨0, 0, 1⟩, ⟨0, 4, 5⟩⟩ []
      ("a__b".toList ++ [';']) :=
    ⟨⟨_, rfl, rfl, rfl⟩, rfl, List.prefix_append _ _⟩
  have is_word : WordBefore "a__b".toList [';'] :=
    ⟨⟨'a', rfl, rfl⟩, List.all_eq_true.mp (by decide), by simp [WordEnds, Text.isWordChar, Char.isAlphanum], by simp⟩
  obtain ⟨-, -, reads⟩ := lines _ _ scanned _ _ _ stands is_word
  exact ⟨_, scanned, stands, is_word, rfl, reads⟩

end VhdlFrontEnd
