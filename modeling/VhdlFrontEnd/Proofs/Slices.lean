import VhdlFrontEnd.Proofs.ByteCursor
import VhdlFrontEnd.Proofs.Loop
import VhdlFrontEnd.Proofs.Openers

/-!
# Slices by byte offsets

A slice of a text is taken between two offsets in bytes, and there is none if an offset is wrong. An opener that no
closer follows can be looked for byte by byte, also within a character. `openerFrom?_append` shows that the search
ends, and only ever takes slices that are there.
-/

namespace VhdlFrontEnd

namespace Text

/-- The text between two offsets in bytes. There is none if they are out of order, or if one of them stands behind the
text or inside a character. -/
def between? (cs : List Char) (start stop : Nat) : Option (List Char) :=
  if start ≤ stop then slice? cs start (stop - start) else none

def upTo? (cs : List Char) (stop : Nat) : Option (List Char) := between? cs 0 stop

def behind? (cs : List Char) (start : Nat) : Option (List Char) := between? cs start (byteLength cs)

/-- The offset stands between two characters of the text, or at one of its ends. -/
def OnBoundary (cs : List Char) (offset : Nat) : Prop :=
  ∃ before after, cs = before ++ after ∧ byteLength before = offset

section

variable {cs : List Char} {start stop : Nat}

theorem between?_append (before inside after : List Char) :
    between? (before ++ (inside ++ after)) (byteLength before) (byteLength before + byteLength inside) =
      some inside := by
  rw [between?, if_pos (Nat.le_add_right _ _), Nat.add_sub_cancel_left]
  exact slice?_append before inside after

@[simp] theorem upTo?_append (before after : List Char) :
    upTo? (before ++ after) (byteLength before) = some before := by
  have all := between?_append [] before after
  rwa [byteLength_nil, Nat.zero_add] at all

@[simp] theorem behind?_append (before after : List Char) :
    behind? (before ++ after) (byteLength before) = some after := by
  have all := between?_append before after []
  rwa [List.append_nil, ← byteLength_append] at all

theorem cut?_eq_some {before after : List Char} {offset : Nat} (cut : cut? cs offset = some (before, after)) :
    cs = before ++ after ∧ byteLength before = offset := by
  induction cs generalizing offset before with
  | nil =>
    cases offset with
    | zero =>
      cases cut
      exact ⟨rfl, rfl⟩
    | succ n => cases cut
  | cons c cs ih =>
    cases offset with
    | zero =>
      cases cut
      exact ⟨rfl, rfl⟩
    | succ n =>
      rw [cut?] at cut
      split at cut
      · next fits =>
        obtain ⟨⟨front, back⟩, found, same⟩ := Option.map_eq_some_iff.mp cut
        cases same
        obtain ⟨rfl, long⟩ := ih found
        refine ⟨rfl, ?_⟩
        rw [byteLength_cons, long]
        omega
      · cases cut

theorem exists_of_between? {inside : List Char} (slice : between? cs start stop = some inside) :
    ∃ before after, cs = before ++ (inside ++ after) ∧ byteLength before = start ∧
      byteLength before + byteLength inside = stop := by
  unfold between? slice? at slice
  split at slice
  · next order =>
    obtain ⟨⟨before, rest⟩, cut, slice⟩ := Option.bind_eq_some_iff.mp slice
    obtain ⟨⟨mid, after⟩, cut_again, same⟩ := Option.bind_eq_some_iff.mp slice
    cases same
    obtain ⟨rfl, rfl⟩ := cut?_eq_some cut
    obtain ⟨rfl, long⟩ := cut?_eq_some cut_again
    exact ⟨before, after, rfl, rfl, by omega⟩
  · cases slice

/-- A slice is there if its offsets are in order, within the text, and inside no character. -/
theorem isSome_between?_iff : (between? cs start stop).isSome ↔
    start ≤ stop ∧ stop ≤ byteLength cs ∧ OnBoundary cs start ∧ OnBoundary cs stop := by
  constructor
  · intro some_slice
    obtain ⟨inside, slice⟩ := Option.isSome_iff_exists.mp some_slice
    obtain ⟨before, after, rfl, rfl, rfl⟩ := exists_of_between? slice
    refine ⟨Nat.le_add_right _ _, ?_, ⟨before, _, rfl, rfl⟩, before ++ inside, after, ?_, byteLength_append _ _⟩
    · rw [byteLength_append, byteLength_append]
      omega
    · rw [List.append_assoc]
  · rintro ⟨order, -, ⟨front, back, rfl, rfl⟩, before, after, same, rfl⟩
    obtain ⟨inside, rfl, rfl⟩ := exists_between same order
    rw [byteLength_append, between?_append]
    rfl

example : between? "aé*".toList 1 2 = none ∧ between? "aé*".toList 1 3 = some ['é'] := by decide

end

/-! ### Bytes at an index -/

variable {c d : Char} {cs front back : List Char}

theorem length_bytes (cs : List Char) : (bytes cs).length = byteLength cs := by
  induction cs with
  | nil => rfl
  | cons c cs ih => rw [bytes_cons, List.length_append, ih, String.length_utf8EncodeChar, byteLength_cons]

theorem getElem?_bytes (front back : List Char) (k : Nat) :
    (bytes (front ++ back))[byteLength front + k]? = (bytes back)[k]? := by
  rw [bytes_append, ← length_bytes, List.getElem?_append_right (Nat.le_add_right _ _), Nat.add_sub_cancel_left]

theorem utf8Size_of_isAscii (ascii : isAscii c) : c.utf8Size = 1 := by
  rw [← String.length_utf8EncodeChar, utf8EncodeChar_of_isAscii ascii, List.length_singleton]

theorem utf8Size_gt_of_not_isAscii (wide : ¬ isAscii c) : 1 < c.utf8Size := by
  have other : c.utf8Size ≠ 1 := fun one =>
    wide (isAscii_iff.mpr (UInt32.le_iff_toNat_le.mp (Char.utf8Size_eq_one_iff.mp one)))
  have := c.utf8Size_pos
  omega

theorem mem_of_toByte_mem (ascii : isAscii d) (mem : toByte d ∈ bytes cs) : d ∈ cs := by
  obtain ⟨c, inside, mem⟩ := List.mem_flatMap.mp mem
  by_cases single : isAscii c
  · rw [utf8EncodeChar_of_isAscii single, List.mem_singleton] at mem
    rwa [toByte_inj ascii single mem]
  · exact absurd (toByte_lt ascii) (not_lt_of_mem_utf8EncodeChar single _ mem)

/-- The byte in front of a text is that of an ASCII character only if the text starts with that. -/
theorem head?_bytes_eq_iff (ascii : isAscii d) : (bytes cs)[0]? = some (toByte d) ↔ cs.head? = some d := by
  cases cs with
  | nil => simp [bytes]
  | cons c cs =>
    rw [bytes_cons, List.head?_cons, Option.some.injEq]
    by_cases single : isAscii c
    · rw [utf8EncodeChar_of_isAscii single, List.singleton_append, List.getElem?_cons_zero, Option.some.injEq]
      exact ⟨toByte_inj single ascii, fun same => same ▸ rfl⟩
    · obtain ⟨b, bs, encoded, high⟩ := utf8EncodeChar_of_not_isAscii single
      rw [encoded, List.cons_append, List.getElem?_cons_zero, Option.some.injEq]
      refine ⟨fun same => absurd (toByte_lt ascii) (same ▸ high), ?_⟩
      rintro rfl
      exact absurd ascii single

end Text

/-! ### Openers by byte index -/

namespace Source

open Text

/-- The offset of the first `*/`. -/
def closerAt? (cs : List Char) : Option Nat := (splitCloser? cs).map fun (front, _) => byteLength front

/-- The offset of the first `/*`. -/
def openerAt? (cs : List Char) : Option Nat := (splitOpener? cs).map fun (front, _) => byteLength front

def nextByte? (bytes : List UInt8) (i : Nat) : Option (Nat ⊕ Nat) :=
  if i < bytes.length then do
    if (← bytes[i]?) = toByte '"' then return .inl i else return .inr (i + 1)
  else return .inl i

/-- The index of the next quote, or behind the last byte. -/
noncomputable def quoteFrom? (bytes : List UInt8) : Nat → Option Nat := loop? (nextByte? bytes)

/-- One turn of the search for an opener, at a byte index. -/
noncomputable def nextMark? (text : List Char) (i : Nat) : Option (Option Nat ⊕ Nat) :=
  if i < (bytes text).length then do
    let byte ← (bytes text)[i]?
    if byte = toByte '"' then return .inr ((← quoteFrom? (bytes text) (i + 1)) + 1)
    else if byte = toByte '\'' ∧ (bytes text)[i + 2]? = some (toByte '\'') then return .inr (i + 3)
    else if byte = toByte '-' ∧ (bytes text)[i + 1]? = some (toByte '-') then return .inl none
    else if byte = toByte '/' ∧ (bytes text)[i + 1]? = some (toByte '*') then
      match closerAt? (← behind? text (i + 2)) with
      | some stop => return .inr (i + 2 + stop + 2)
      | none => return .inl (some i)
    else return .inr (i + 1)
  else return .inl none

/-- The offset of the opener that no closer follows on the line, from a byte index on. There is no result if the search
does not end or takes a slice that is not there. -/
noncomputable def openerFrom? (text : List Char) : Nat → Option (Option Nat) := loop? (nextMark? text)

theorem quoteFrom?_append (front inside : List UInt8) {back : List UInt8} (unquoted : toByte '"' ∉ inside)
    (stops : ∀ b ∈ back.head?, b = toByte '"') :
    quoteFrom? (front ++ (inside ++ back)) front.length = some (front.length + inside.length) := by
  induction inside generalizing front with
  | nil =>
    rw [quoteFrom?, loop?_eq, nextByte?]
    cases back with
    | nil => rw [if_neg (by simp)]; rfl
    | cons b back =>
      have here : (front ++ ([] ++ b :: back))[front.length]? = some (toByte '"') := by
        rw [← stops b rfl]
        simp
      rw [if_pos (by simp), here]
      rfl
  | cons b inside ih =>
    rw [List.mem_cons, not_or] at unquoted
    have later := ih (front ++ [b]) unquoted.2
    have here : (front ++ (b :: inside ++ back))[front.length]? = some b := by simp
    rw [quoteFrom?, loop?_eq, nextByte?, if_pos (by simp), here]
    show (if b = toByte '"' then _ else _ : Option (Nat ⊕ Nat)).bind _ = _
    rw [if_neg (Ne.symm unquoted.1)]
    show quoteFrom? _ (front.length + 1) = _
    simpa [Nat.add_assoc, Nat.add_comm 1] using later

section

variable {text : List Char} {i : Nat}

/-- One turn of the search, at the byte that stands there. -/
theorem openerFrom?_of_byte {byte : UInt8} (here : (bytes text)[i]? = some byte) : openerFrom? text i =
    if byte = toByte '"' then do openerFrom? text ((← quoteFrom? (bytes text) (i + 1)) + 1)
    else if byte = toByte '\'' ∧ (bytes text)[i + 2]? = some (toByte '\'') then openerFrom? text (i + 3)
    else if byte = toByte '-' ∧ (bytes text)[i + 1]? = some (toByte '-') then return none
    else if byte = toByte '/' ∧ (bytes text)[i + 1]? = some (toByte '*') then do
      match closerAt? (← behind? text (i + 2)) with
      | some stop => openerFrom? text (i + 2 + stop + 2)
      | none => return some i
    else openerFrom? text (i + 1) := by
  rw [openerFrom?, loop?_eq, nextMark?, if_pos (List.getElem?_eq_some_iff.mp here).1, here, Option.bind_eq_bind,
    Option.bind_some]
  split_ifs
  · exact Option.bind_assoc _ _ _
  · rfl
  · rfl
  · refine (Option.bind_assoc _ _ _).trans (congrArg _ (funext fun rest => ?_))
    cases closerAt? rest <;> rfl
  · rfl

theorem openerFrom?_end (le : byteLength text ≤ i) : openerFrom? text i = some none := by
  rw [openerFrom?, loop?_eq, nextMark?, if_neg (by rw [length_bytes]; omega)]
  rfl

/-- The search goes through a character that is not ASCII byte by byte. -/
theorem openerFrom?_high (before inside : List UInt8) {after : List UInt8}
    (whole : bytes text = before ++ (inside ++ after)) (high : ∀ b ∈ inside, ¬ b < 0x80) :
    openerFrom? text before.length = openerFrom? text (before.length + inside.length) := by
  induction inside generalizing before with
  | nil => rfl
  | cons b inside ih =>
    obtain ⟨first, high⟩ := List.forall_mem_cons.mp high
    have here : (bytes text)[before.length]? = some b := by
      rw [whole]
      simp
    have other {d : Char} (ascii : isAscii d) : b ≠ toByte d := fun same => first (same ▸ toByte_lt ascii)
    rw [openerFrom?_of_byte here, if_neg (other rfl), if_neg fun same => other rfl same.1,
      if_neg fun same => other rfl same.1, if_neg fun same => other rfl same.1]
    have later := ih (before ++ [b]) (by rw [whole]; simp) high
    simpa [Nat.add_assoc, Nat.add_comm 1] using later

end

section

variable {front back rest body : List Char} {c d x : Char}

theorem getElem?_front (ascii : isAscii c) : (bytes (front ++ c :: rest))[byteLength front]? = some (toByte c) := by
  have here := getElem?_bytes front (c :: rest) 0
  rwa [Nat.add_zero, bytes_cons, utf8EncodeChar_of_isAscii ascii] at here

theorem getElem?_next (ascii : isAscii c) (k : Nat) :
    (bytes (front ++ c :: rest))[byteLength front + (k + 1)]? = (bytes rest)[k]? := by
  rw [getElem?_bytes, bytes_cons, utf8EncodeChar_of_isAscii ascii, List.singleton_append, List.getElem?_cons_succ]

/-- An apostrophe two bytes behind another one ends a literal of one byte. -/
theorem getElem?_one_eq_iff : (bytes rest)[1]? = some (toByte '\'') ↔
    ∃ x after, rest = x :: '\'' :: after ∧ isAscii x := by
  cases rest with
  | nil => simp [bytes]
  | cons x after =>
    rw [bytes_cons]
    by_cases ascii : isAscii x
    · rw [utf8EncodeChar_of_isAscii ascii, List.singleton_append, List.getElem?_cons_succ, head?_bytes_eq_iff rfl]
      simp [List.head?_eq_some_iff, ascii]
    · have long : 1 < (String.utf8EncodeChar x).length := by
        rw [String.length_utf8EncodeChar]
        exact utf8Size_gt_of_not_isAscii ascii
      rw [List.getElem?_append_left long, List.getElem?_eq_getElem long, Option.some.injEq]
      constructor
      · intro same
        exact absurd (toByte_lt (c := '\'') rfl) (same ▸ not_lt_of_mem_utf8EncodeChar ascii _ (List.getElem_mem long))
      · rintro ⟨y, after, same, single⟩
        cases same
        exact absurd single ascii

/-- A character that starts nothing is passed over alone. -/
theorem openerFrom?_alone (alone : Alone c rest) : openerFrom? (front ++ c :: rest) (byteLength front) =
    openerFrom? (front ++ c :: rest) (byteLength (front ++ [c])) := by
  have size : byteLength (front ++ [c]) = byteLength front + c.utf8Size := byteLength_append front [c]
  by_cases ascii : isAscii c
  · have same {d : Char} (ascii' : isAscii d) (same : toByte c = toByte d) : c = d := toByte_inj ascii ascii' same
    have next {d : Char} (ascii' : isAscii d)
        (found : (bytes (front ++ c :: rest))[byteLength front + 1]? = some (toByte d)) : rest.head? = some d := by
      rwa [getElem?_next ascii, head?_bytes_eq_iff ascii'] at found
    have literal : ¬ (toByte c = toByte '\'' ∧
        (bytes (front ++ c :: rest))[byteLength front + 2]? = some (toByte '\'')) := by
      rintro ⟨apostrophe, closes⟩
      obtain rfl := same rfl apostrophe
      rw [getElem?_next ascii 1, getElem?_one_eq_iff] at closes
      obtain ⟨x, after, rfl, single⟩ := closes
      exact alone.literal ⟨x, after, rfl, single⟩
    rw [openerFrom?_of_byte (getElem?_front ascii), if_neg fun quote => alone.quote (same rfl quote), if_neg literal,
      if_neg fun dashes => alone.dashes ⟨same rfl dashes.1, next rfl dashes.2⟩,
      if_neg fun opener => alone.opener ⟨same rfl opener.1, next rfl opener.2⟩, size, utf8Size_of_isAscii ascii]
  · have whole : bytes (front ++ c :: rest) = bytes front ++ (String.utf8EncodeChar c ++ bytes rest) := by
      rw [bytes_append, bytes_cons]
    have passed := openerFrom?_high _ _ whole (not_lt_of_mem_utf8EncodeChar ascii)
    rwa [length_bytes, String.length_utf8EncodeChar, ← size] at passed

/-- A string is passed over up to its closing quote, or to the end of the line. -/
theorem openerFrom?_string (front : List Char) (unquoted : '"' ∉ body) (stops : ∀ d ∈ rest.head?, d = '"') :
    openerFrom? (front ++ '"' :: (body ++ rest)) (byteLength front) =
      openerFrom? (front ++ '"' :: (body ++ rest)) (byteLength (front ++ '"' :: body) + 1) := by
  have bytes_eq : bytes (front ++ '"' :: (body ++ rest)) = bytes (front ++ ['"']) ++ (bytes body ++ bytes rest) := by
    rw [← bytes_append, ← bytes_append, List.append_assoc]
    rfl
  have at_quote : ∀ b ∈ (bytes rest).head?, b = toByte '"' := by
    cases rest with
    | nil => exact nofun
    | cons d rest =>
      rw [stops d rfl, bytes_cons, utf8EncodeChar_of_isAscii rfl]
      simp
  have found := quoteFrom?_append (bytes (front ++ ['"'])) (bytes body)
    (fun mem => unquoted (mem_of_toByte_mem rfl mem)) at_quote
  rw [← bytes_eq, length_bytes, length_bytes] at found
  rw [openerFrom?_of_byte (getElem?_front rfl), if_pos rfl]
  have behind : byteLength front + 1 = byteLength (front ++ ['"']) := (byteLength_append front ['"']).symm
  rw [behind, found, ← byteLength_append, List.append_assoc]
  rfl

theorem openerFrom?_closed (front after : List Char) (unquoted : '"' ∉ body) :
    openerFrom? (front ++ ('"' :: (body ++ ['"']) ++ after)) (byteLength front) =
      openerFrom? (front ++ ('"' :: (body ++ ['"']) ++ after)) (byteLength (front ++ '"' :: (body ++ ['"']))) := by
  have step : openerFrom? (front ++ '"' :: (body ++ '"' :: after)) (byteLength front) = _ :=
    openerFrom?_string front unquoted fun d mem => (Option.some.inj mem).symm
  have quote : byteLength ['"'] = 1 := rfl
  simpa [Nat.add_assoc, quote] using step

theorem openerFrom?_literal (ascii : isAscii x) :
    openerFrom? (front ++ '\'' :: x :: '\'' :: rest) (byteLength front) =
      openerFrom? (front ++ '\'' :: x :: '\'' :: rest) (byteLength (front ++ ['\'', x, '\''])) := by
  have closes : (bytes (front ++ '\'' :: x :: '\'' :: rest))[byteLength front + 2]? = some (toByte '\'') := by
    rw [getElem?_next rfl 1, getElem?_one_eq_iff]
    exact ⟨x, rest, rfl, ascii⟩
  rw [openerFrom?_of_byte (getElem?_front rfl), if_neg (by decide), if_pos ⟨rfl, closes⟩, byteLength_append]
  simp [utf8Size_of_isAscii ascii, utf8Size_of_isAscii (c := '\'') rfl]

theorem openerFrom?_dashes : openerFrom? (front ++ '-' :: '-' :: rest) (byteLength front) = some none := by
  have next : (bytes (front ++ '-' :: '-' :: rest))[byteLength front + 1]? = some (toByte '-') := by
    rw [getElem?_next rfl 0, head?_bytes_eq_iff rfl]
    rfl
  rw [openerFrom?_of_byte (getElem?_front rfl), if_neg (by decide), if_neg fun same => absurd same.1 (by decide),
    if_pos ⟨rfl, next⟩]
  rfl

theorem openerFrom?_opener : openerFrom? (front ++ '/' :: '*' :: rest) (byteLength front) =
    match closerAt? rest with
    | some stop => openerFrom? (front ++ '/' :: '*' :: rest) (byteLength front + 2 + stop + 2)
    | none => some (some (byteLength front)) := by
  have next : (bytes (front ++ '/' :: '*' :: rest))[byteLength front + 1]? = some (toByte '*') := by
    rw [getElem?_next rfl 0, head?_bytes_eq_iff rfl]
    rfl
  have slice : behind? (front ++ '/' :: '*' :: rest) (byteLength front + 2) = some rest := by
    have slice := behind?_append (front ++ ['/', '*']) rest
    rwa [byteLength_append, List.append_assoc] at slice
  rw [openerFrom?_of_byte (getElem?_front rfl), if_neg (by decide), if_neg fun same => absurd same.1 (by decide),
    if_neg fun same => absurd same.1 (by decide), if_pos ⟨rfl, next⟩, slice]
  rfl

/-- A comment that closes on the line is passed over. -/
theorem openerFrom?_comment (front : List Char) {after : List Char}
    (closes : splitCloser? (body ++ '*' :: '/' :: after) = some (body, after)) :
    openerFrom? (front ++ ('/' :: '*' :: (body ++ ['*', '/']) ++ after)) (byteLength front) =
      openerFrom? (front ++ ('/' :: '*' :: (body ++ ['*', '/']) ++ after))
        (byteLength (front ++ (['/', '*'] ++ (body ++ ['*', '/'])))) := by
  have step : openerFrom? (front ++ '/' :: '*' :: (body ++ '*' :: '/' :: after)) (byteLength front) = _ :=
    openerFrom?_opener
  rw [closerAt?, closes] at step
  have opener : byteLength ['/', '*'] = 2 := rfl
  have closer : byteLength ['*', '/'] = 2 := rfl
  have long : byteLength (front ++ (['/', '*'] ++ (body ++ ['*', '/']))) =
      byteLength front + 2 + byteLength body + 2 := by
    rw [byteLength_append, byteLength_append, byteLength_append, opener, closer]
    omega
  rw [long]
  simpa using step

/-- What is found behind a step is what is found at all. -/
theorem openerFrom?_of_step (used : List Char) {after : List Char}
    (step : openerFrom? (front ++ (used ++ after)) (byteLength front) =
      openerFrom? (front ++ (used ++ after)) (byteLength (front ++ used)))
    (later : ∀ front, openerFrom? (front ++ after) (byteLength front) =
      some ((unclosedOpener? after).map fun before => byteLength (front ++ before))) :
    openerFrom? (front ++ (used ++ after)) (byteLength front) =
      some (((unclosedOpener? after).map (used ++ ·)).map fun before => byteLength (front ++ before)) := by
  rw [step, ← List.append_assoc, later, Option.map_map]
  simp only [Function.comp_def, List.append_assoc]

/-- The search takes only slices that are there, and finds what is found character by character. -/
theorem openerFrom?_append (front back : List Char) : openerFrom? (front ++ back) (byteLength front) =
    some ((unclosedOpener? back).map fun before => byteLength (front ++ before)) := by
  fun_induction unclosedOpener? back generalizing front with
  | case1 =>
    rw [openerFrom?_end (by rw [List.append_nil])]
    rfl
  | case2 rest runs_off =>
    have unquoted : '"' ∉ rest := fun mem => by simpa using List.dropWhile_eq_nil_iff.mp runs_off _ mem
    have step : openerFrom? (front ++ '"' :: (rest ++ [])) (byteLength front) = _ :=
      openerFrom?_string front unquoted (by simp)
    rw [List.append_nil] at step
    rw [step, openerFrom?_end (Nat.le_succ _)]
    rfl
  | case3 rest q after closes ih =>
    have whole := List.takeWhile_append_dropWhile (p := fun d : Char => decide (d ≠ '"')) (l := rest)
    rw [closes] at whole
    obtain rfl : q = '"' := eq_of_dropWhile_ne closes
    have unquoted := not_mem_takeWhile_ne '"' rest
    generalize rest.takeWhile (fun d => decide (d ≠ '"')) = body at whole unquoted ⊢
    subst whole
    have found := openerFrom?_of_step ('"' :: (body ++ ['"'])) (openerFrom?_closed front after unquoted) ih
    simpa using found
  | case4 c rest _ dashes =>
    obtain ⟨rfl, next⟩ := dashes
    obtain ⟨rest, rfl⟩ := List.head?_eq_some_iff.mp next
    exact openerFrom?_dashes
  | case5 c rest _ _ mark none_closes =>
    obtain ⟨rfl, star⟩ := mark
    obtain ⟨rest, rfl⟩ := List.head?_eq_some_iff.mp star
    rw [List.tail_cons] at none_closes
    rw [openerFrom?_opener, closerAt?, none_closes]
    simp
  | case6 c rest _ _ mark inside after closes ih =>
    obtain ⟨rfl, star⟩ := mark
    obtain ⟨rest, rfl⟩ := List.head?_eq_some_iff.mp star
    rw [List.tail_cons] at closes
    obtain rfl := splitMark?_eq_some closes
    have found := openerFrom?_of_step ('/' :: '*' :: (inside ++ ['*', '/'])) (openerFrom?_comment front closes) ih
    simpa using found
  | case7 c _ x after literal _ _ ih =>
    obtain ⟨rfl, ascii⟩ := literal
    exact openerFrom?_of_step ['\'', x, '\''] (openerFrom?_literal ascii) ih
  | case8 c quote x after other dashes opener ih =>
    exact openerFrom?_of_step [c] (openerFrom?_alone (alone_of_not_literal quote dashes opener other)) ih
  | case9 c quote rest short dashes opener ih =>
    exact openerFrom?_of_step [c] (openerFrom?_alone (alone_of_short quote dashes opener short)) ih

end

end Source

end VhdlFrontEnd
