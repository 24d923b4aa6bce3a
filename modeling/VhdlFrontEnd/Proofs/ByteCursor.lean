import VhdlFrontEnd.Proofs.Words
import VhdlFrontEnd.Text.Cursor

/-!
# The cursor by byte offsets

A cursor can keep its line whole, with the byte offset that it has reached, and cut the line there whenever it is
asked what is left. It looks ahead by bytes where all of them up to the one it looks for are ASCII. `walk?_inBytes`
shows that it moves as the cursor that keeps characters does, and `walk_faithful` that no move loses or invents a
character.
-/

namespace VhdlFrontEnd.Text

structure ByteCursor where
  text : List Char
  position : Nat
  column : Nat
  tabWidth : Nat
deriving DecidableEq, Repr

namespace ByteCursor

def start (tabWidth : Nat) (line : List Char) : ByteCursor := ⟨line, 0, 1, max tabWidth 1⟩

/-- What is left of the line; nothing if the offset does not stand between two characters. -/
def remaining (c : ByteCursor) : List Char := ((cut? c.text c.position).map (·.2)).getD []

def atEnd (c : ByteCursor) : Bool := decide (byteLength c.text ≤ c.position)

/-- The character `n` places ahead, or NUL behind the end. Behind nothing but ASCII it is the byte there. -/
def peek (c : ByteCursor) (n : Nat) : Char :=
  let decoded := c.remaining[n]?.getD '\x00'
  match (bytes c.remaining)[n]? with
  | some b => if ((bytes c.remaining).take (n + 1)).all (· < 0x80) then Char.ofNat b.toNat else decoded
  | none => decoded

def advance (c : ByteCursor) : ByteCursor :=
  match c.remaining with
  | [] => c
  | x :: _ => { c with position := c.position + x.utf8Size, column := c.column + charWidth c.tabWidth x }

def advanceBy (c : ByteCursor) : Nat → ByteCursor
  | 0 => c
  | n + 1 => c.advance.advanceBy n

def pass? (c : ByteCursor) (x : Char) : Option ByteCursor :=
  if !c.atEnd && c.peek 0 == x then some c.advance else none

def passWord? (c : ByteCursor) (word : List Char) : Option ByteCursor :=
  if word.isPrefixOf c.remaining then some (c.advanceBy word.length) else none

theorem text_advance (c : ByteCursor) : c.advance.text = c.text := by
  unfold advance
  split <;> rfl

/-- Past the characters that `p` takes, given those that it took before. There is no result if the cursor does not go
on before the end of the line. -/
def eatWhile? (p : List Char → Char → Bool) (taken : List Char) (c : ByteCursor) : Option ByteCursor :=
  if !c.atEnd && p taken (c.peek 0) then
    if c.position < c.advance.position then eatWhile? p (c.peek 0 :: taken) c.advance else none
  else some c
termination_by byteLength c.text - c.position
decreasing_by
  next takes _ =>
    rw [Bool.and_eq_true, Bool.not_eq_true', atEnd, decide_eq_false_iff_not] at takes
    rw [text_advance]
    omega

def toEnd? (c : ByteCursor) : Option ByteCursor := c.eatWhile? (fun _ _ => true) []

def textFrom (c : ByteCursor) (start : Nat) : List Char :=
  if start ≤ c.position then (slice? c.text start (c.position - start)).getD [] else []

end ByteCursor

/-! ### Moves -/

inductive Move
  | advance
  | advanceBy (n : Nat)
  | pass (x : Char)
  | passWord (word : List Char)
  /-- Past the characters that are taken, which may depend on those taken before. -/
  | eatWhile (p : List Char → Char → Bool)
  | toEnd

def ByteCursor.move? (c : ByteCursor) : Move → Option ByteCursor
  | .advance => some c.advance
  | .advanceBy n => some (c.advanceBy n)
  | .pass x => some ((c.pass? x).getD c)
  | .passWord word => some ((c.passWord? word).getD c)
  | .eatWhile p => c.eatWhile? p []
  | .toEnd => c.toEnd?

def ByteCursor.walk? (c : ByteCursor) (moves : List Move) : Option ByteCursor := moves.foldlM move? c

/-- The characters in front that `p` takes, given those that it took before. -/
def takenBy (p : List Char → Char → Bool) (taken : List Char) : List Char → List Char
  | [] => []
  | x :: xs => if p taken x then x :: takenBy p (x :: taken) xs else []

theorem takenBy_const (p : Char → Bool) (taken cs : List Char) : takenBy (fun _ => p) taken cs = cs.takeWhile p := by
  induction cs generalizing taken with
  | nil => rfl
  | cons x xs ih =>
    rw [takenBy, List.takeWhile_cons, ih]

namespace Cursor

def eatWhile (c : Cursor) (p : List Char → Char → Bool) : Cursor := c.advanceBy (takenBy p [] c.rest).length

theorem eatWhile_const (c : Cursor) (p : Char → Bool) : c.eatWhile (fun _ => p) = c.advanceWhile p := by
  rw [eatWhile, takenBy_const, advanceWhile]

def move (c : Cursor) : Move → Cursor
  | .advance => c.advance
  | .advanceBy n => c.advanceBy n
  | .pass x => (c.pass? x).getD c
  | .passWord word => (c.passWord? word).getD c
  | .eatWhile p => c.eatWhile p
  | .toEnd => c.toEnd

def walk (c : Cursor) (moves : List Move) : Cursor := moves.foldl move c

/-! ### Where moves lead -/

theorem advanceBy_eq (c : Cursor) (n : Nat) : c.advanceBy n =
    ⟨(c.rest.take n).reverse ++ c.passed, c.rest.drop n, c.column + width c.tabWidth (c.rest.take n), c.tabWidth⟩ := by
  induction n generalizing c with
  | zero => rfl
  | succ n ih =>
    rw [advanceBy, ih]
    cases rest : c.rest with
    | nil => simp [advance, rest]
    | cons x xs => simp [advance, rest, Nat.add_assoc]

theorem advanceBy_advanceBy (c : Cursor) (m n : Nat) : (c.advanceBy m).advanceBy n = c.advanceBy (m + n) := by
  induction m generalizing c with
  | zero => rw [Nat.zero_add, advanceBy]
  | succ m ih => rw [advanceBy, ih, Nat.succ_add, advanceBy]

/-- Every move goes on by some number of characters. -/
theorem exists_move_eq (c : Cursor) (m : Move) : ∃ n, c.move m = c.advanceBy n := by
  cases m with
  | advance => exact ⟨1, rfl⟩
  | advanceBy n => exact ⟨n, rfl⟩
  | pass x =>
    rw [move, pass?]
    split
    · exact ⟨1, rfl⟩
    · exact ⟨0, rfl⟩
  | passWord word =>
    rw [move, passWord?]
    split
    · exact ⟨word.length, rfl⟩
    · exact ⟨0, rfl⟩
  | eatWhile p => exact ⟨_, rfl⟩
  | toEnd => exact ⟨_, rfl⟩

theorem exists_walk_eq (c : Cursor) (moves : List Move) : ∃ n, c.walk moves = c.advanceBy n := by
  induction moves generalizing c with
  | nil => exact ⟨0, rfl⟩
  | cons m moves ih =>
    obtain ⟨first, step⟩ := c.exists_move_eq m
    obtain ⟨others, rest⟩ := ih (c.move m)
    refine ⟨first + others, ?_⟩
    rw [← advanceBy_advanceBy, ← step]
    exact rest

theorem walk_append (c : Cursor) (earlier later : List Move) :
    c.walk (earlier ++ later) = (c.walk earlier).walk later := List.foldl_append

/-! ### The same by offsets -/

def inBytes (c : Cursor) : ByteCursor := ⟨c.text, c.offset, c.column, c.tabWidth⟩

end Cursor

theorem byteLength_reverse (cs : List Char) : byteLength cs.reverse = byteLength cs := by
  induction cs with
  | nil => rfl
  | cons c cs ih =>
    rw [List.reverse_cons, byteLength_append, byteLength_cons, byteLength_cons, byteLength_nil, ih]
    omega

theorem exists_between {front back before after : List Char} (same : front ++ back = before ++ after)
    (le : byteLength front ≤ byteLength before) : ∃ mid, before = front ++ mid ∧ back = mid ++ after := by
  rcases List.append_eq_append_iff.mp same with ⟨mid, between⟩ | ⟨mid, rfl, rfl⟩
  · exact ⟨mid, between⟩
  · rw [byteLength_append] at le
    have nothing : byteLength mid = byteLength [] := by
      rw [byteLength_nil]
      omega
    obtain ⟨rfl, -⟩ := append_inj_of_byteLength (List.append_nil mid) nothing
    exact ⟨[], by simp, rfl⟩

/-- A byte that only ASCII stands before, and that is ASCII itself, is the character with its number. -/
theorem getElem?_of_bytes {cs : List Char} {n : Nat} {b : UInt8} (here : (bytes cs)[n]? = some b)
    (ascii : ((bytes cs).take (n + 1)).all (· < 0x80)) : cs[n]? = some (Char.ofNat b.toNat) := by
  induction cs generalizing n with
  | nil => exact nomatch here
  | cons c cs ih =>
    rw [bytes_cons] at here ascii
    by_cases single : isAscii c
    · rw [utf8EncodeChar_of_isAscii single] at here ascii
      cases n with
      | zero =>
        cases here
        rw [ofNat_toByte single]
        rfl
      | succ n =>
        rw [List.singleton_append, List.take_succ_cons, List.all_cons, Bool.and_eq_true] at ascii
        exact ih here ascii.2
    · obtain ⟨first, others, encoded, high⟩ := utf8EncodeChar_of_not_isAscii single
      rw [encoded, List.cons_append, List.take_succ_cons, List.all_cons, Bool.and_eq_true] at ascii
      exact absurd (of_decide_eq_true ascii.1) high

/-- Looking ahead by bytes finds the character that stands there. -/
theorem ByteCursor.peek_eq (c : ByteCursor) (n : Nat) : c.peek n = c.remaining[n]?.getD '\x00' := by
  unfold peek
  dsimp only
  split
  · next b here =>
    split
    · next ascii => rw [getElem?_of_bytes here ascii, Option.getD_some]
    · rfl
  · rfl

namespace Cursor

variable (c : Cursor)

theorem offset_eq : c.offset = byteLength c.passed.reverse := (byteLength_reverse c.passed).symm

@[simp] theorem remaining_inBytes : c.inBytes.remaining = c.rest := by
  have cut : cut? c.text c.offset = some (c.passed.reverse, c.rest) := by
    rw [offset_eq]
    exact cut?_append _ _
  rw [ByteCursor.remaining, inBytes, cut]
  rfl

@[simp] theorem atEnd_inBytes : c.inBytes.atEnd = c.atEnd := by
  show decide (byteLength (c.passed.reverse ++ c.rest) ≤ c.offset) = c.rest.isEmpty
  rw [offset_eq, byteLength_append]
  cases c.rest with
  | nil => simp
  | cons x xs =>
    have size := x.utf8Size_pos
    apply decide_eq_false
    rw [byteLength_cons]
    omega

@[simp] theorem peek_inBytes (n : Nat) : c.inBytes.peek n = (c.peek? n).getD '\x00' := by
  rw [ByteCursor.peek_eq, remaining_inBytes, peek?]

@[simp] theorem advance_inBytes : c.inBytes.advance = c.advance.inBytes := by
  rw [ByteCursor.advance, remaining_inBytes, advance]
  cases rest : c.rest with
  | nil => rfl
  | cons x xs => simp [inBytes, text, offset, rest, Nat.add_comm]

@[simp] theorem advanceBy_inBytes (n : Nat) : c.inBytes.advanceBy n = (c.advanceBy n).inBytes := by
  induction n generalizing c with
  | zero => rfl
  | succ n ih => rw [ByteCursor.advanceBy, advance_inBytes, ih, advanceBy]

theorem pass?_inBytes (x : Char) : c.inBytes.pass? x = (c.pass? x).map inBytes := by
  rw [ByteCursor.pass?, pass?, atEnd_inBytes, peek_inBytes, advance_inBytes, atEnd, peek?]
  cases c.rest with
  | nil => rfl
  | cons y ys => by_cases same : y = x <;> simp [same]

theorem passWord?_inBytes (word : List Char) : c.inBytes.passWord? word = (c.passWord? word).map inBytes := by
  rw [ByteCursor.passWord?, passWord?, remaining_inBytes, advanceBy_inBytes]
  split <;> rfl

/-- The loop ends, as each turn passes a character of the line. -/
theorem eatWhile?_inBytes (p : List Char → Char → Bool) (taken : List Char) :
    c.inBytes.eatWhile? p taken = some (c.advanceBy (takenBy p taken c.rest).length).inBytes := by
  -- Each turn takes the first character off what is left of the line.
  induction rest : c.rest generalizing c taken with
  | nil =>
    rw [ByteCursor.eatWhile?, atEnd_inBytes, atEnd, rest]
    rfl
  | cons x xs ih =>
    have first : (c.peek? 0).getD '\x00' = x := by rw [peek?, rest]; rfl
    have next_rest : c.advance.rest = xs := by simp [advance, rest]
    rw [ByteCursor.eatWhile?, atEnd_inBytes, atEnd, rest, peek_inBytes, first, takenBy]
    have goes_on : c.inBytes.position < c.advance.inBytes.position := by
      have size := x.utf8Size_pos
      show c.offset < c.advance.offset
      simp only [advance, rest, offset, byteLength_cons]
      omega
    by_cases takes : p taken x
    · rw [if_pos takes, advance_inBytes, if_pos goes_on, ih c.advance _ next_rest, List.length_cons, advanceBy]
      simp [takes]
    · simp [takes, advanceBy]

theorem toEnd?_inBytes : c.inBytes.toEnd? = some c.toEnd.inBytes := by
  have all : takenBy (fun _ _ => true) [] c.rest = c.rest := by
    rw [takenBy_const, List.takeWhile_eq_self_iff]
    exact fun _ _ => rfl
  rw [ByteCursor.toEnd?, eatWhile?_inBytes, all, toEnd]

/-- A move by offsets ends, and where it leads the same move leads by characters. -/
theorem move?_inBytes (m : Move) : c.inBytes.move? m = some (c.move m).inBytes := by
  cases m with
  | advance => exact congrArg some c.advance_inBytes
  | advanceBy n => exact congrArg some (c.advanceBy_inBytes n)
  | pass x =>
    rw [ByteCursor.move?, move, pass?_inBytes]
    cases c.pass? x <;> rfl
  | passWord word =>
    rw [ByteCursor.move?, move, passWord?_inBytes]
    cases c.passWord? word <;> rfl
  | eatWhile p => exact c.eatWhile?_inBytes p []
  | toEnd => exact c.toEnd?_inBytes

theorem walk?_inBytes (moves : List Move) : c.inBytes.walk? moves = some (c.walk moves).inBytes := by
  induction moves generalizing c with
  | nil => rfl
  | cons m moves ih =>
    rw [ByteCursor.walk?, List.foldlM_cons, move?_inBytes, Option.bind_eq_bind, Option.bind_some]
    exact ih (c.move m)

end Cursor

/-! ### What the cursor shows -/

namespace Cursor

variable {c : Cursor}

/-- From a place on the line the text goes on up to the cursor, and from there with what is left. -/
theorem textFrom_inBytes {front back : List Char} (whole : c.text = front ++ back) (le : byteLength front ≤ c.offset) :
    c.inBytes.textFrom (byteLength front) ++ c.rest = back := by
  obtain ⟨mid, passed, rfl⟩ := exists_between whole.symm (c.offset_eq ▸ le)
  have long : c.offset - byteLength front = byteLength mid := by
    rw [offset_eq, passed, byteLength_append]
    omega
  have cut : slice? c.text (byteLength front) (c.offset - byteLength front) = some mid := by
    rw [whole, long]
    exact slice?_append front mid c.rest
  show (if byteLength front ≤ c.offset then
    (slice? c.text (byteLength front) (c.offset - byteLength front)).getD [] else []) ++ c.rest = mid ++ c.rest
  rw [if_pos le, cut, Option.getD_some]

theorem offset_le_walk (c : Cursor) (moves : List Move) : c.offset ≤ (c.walk moves).offset := by
  obtain ⟨n, walked⟩ := c.exists_walk_eq moves
  rw [walked, advanceBy_eq, offset, offset, byteLength_append]
  exact Nat.le_add_left _ _

theorem text_walk (c : Cursor) (moves : List Move) : (c.walk moves).text = c.text := by
  obtain ⟨n, walked⟩ := c.exists_walk_eq moves
  rw [walked, text_advanceBy]

/-- A word is passed exactly if the line goes on with it, and then nothing else is passed. -/
theorem passWord?_eq (c : Cursor) (word : List Char) :
    (∃ d, c.passWord? word = some d ∧ d.text = c.text ∧ c.rest = word ++ d.rest ∧
      d.offset = c.offset + byteLength word) ∨ (c.passWord? word = none ∧ ¬ word <+: c.rest) := by
  rw [passWord?]
  split
  · next starts =>
    obtain ⟨after, whole⟩ := List.isPrefixOf_iff_prefix.mp starts
    refine Or.inl ⟨_, rfl, c.text_advanceBy _, ?_, ?_⟩
    · rw [advanceBy_eq, ← whole, List.drop_left]
    · rw [advanceBy_eq, ← whole, List.take_left, offset, byteLength_append, byteLength_reverse, offset, Nat.add_comm]
  · next other => exact Or.inr ⟨rfl, fun starts => other (List.isPrefixOf_iff_prefix.mpr starts)⟩

end Cursor

/-- After any moves along a line the cursor stands between two characters of it. The text from any place passed
up to the cursor, and from there to the end, is the text from that place on. Every character ahead is seen as it stands,
and a word is passed exactly if the line goes on with it. -/
theorem walk_faithful (tabWidth : Nat) (text : List Char) (moves : List Move) :
    ∃ c, (ByteCursor.start tabWidth text).walk? moves = some c ∧
      c = ((Cursor.start tabWidth text).walk moves).inBytes ∧
      c.remaining = ((Cursor.start tabWidth text).walk moves).rest ∧
      (∃ before, text = before ++ c.remaining ∧ c.position = byteLength before) ∧
      c.position ≤ byteLength text ∧
      (∀ front back, text = front ++ back → byteLength front ≤ c.position →
        c.textFrom (byteLength front) ++ c.remaining = back) ∧
      (∀ earlier later, moves = earlier ++ later → ∃ d, (ByteCursor.start tabWidth text).walk? earlier = some d ∧
        d.position ≤ c.position ∧ c.textFrom d.position ++ c.remaining = d.remaining) ∧
      (∀ n, c.peek n = c.remaining[n]?.getD '\x00') ∧
      ∀ word, ((c.passWord? word).isSome ↔ word <+: c.remaining) ∧ ∀ d ∈ c.passWord? word,
        d.text = text ∧ c.remaining = word ++ d.remaining ∧ d.position = c.position + byteLength word := by
  have ends : ∀ moves, (ByteCursor.start tabWidth text).walk? moves =
      some ((Cursor.start tabWidth text).walk moves).inBytes := (Cursor.start tabWidth text).walk?_inBytes
  have line : ∀ moves, ((Cursor.start tabWidth text).walk moves).text = text := (Cursor.start tabWidth text).text_walk
  generalize reached : (Cursor.start tabWidth text).walk moves = c
  have whole : c.text = text := reached ▸ line moves
  refine ⟨c.inBytes, reached ▸ ends moves, rfl, c.remaining_inBytes, ⟨c.passed.reverse, ?_, c.offset_eq⟩, ?_, ?_, ?_,
    c.inBytes.peek_eq, ?_⟩
  · rw [Cursor.remaining_inBytes]
    exact whole.symm
  · show c.offset ≤ byteLength text
    rw [← whole, Cursor.offset_eq, Cursor.text, byteLength_append]
    exact Nat.le_add_right _ _
  · intro front back split le
    rw [Cursor.remaining_inBytes]
    exact Cursor.textFrom_inBytes (whole.trans split) le
  · rintro earlier later rfl
    -- The earlier cursor stands behind a front of the line, no further than this one.
    rw [Cursor.walk_append] at reached
    have le := ((Cursor.start tabWidth text).walk earlier).offset_le_walk later
    rw [reached] at le
    refine ⟨_, ends earlier, le, ?_⟩
    rw [Cursor.remaining_inBytes, Cursor.remaining_inBytes]
    rw [Cursor.offset_eq] at le
    show c.inBytes.textFrom ((Cursor.start tabWidth text).walk earlier).offset ++ c.rest = _
    rw [Cursor.offset_eq]
    exact Cursor.textFrom_inBytes (whole.trans (line earlier).symm) le
  · intro word
    rw [Cursor.passWord?_inBytes, Cursor.remaining_inBytes]
    rcases c.passWord?_eq word with ⟨d, passes, same, goes_on, further⟩ | ⟨stays, other⟩
    · rw [passes]
      refine ⟨⟨fun _ => ⟨d.rest, goes_on.symm⟩, fun _ => rfl⟩, ?_⟩
      intro after found
      obtain rfl := Option.some.inj found
      rw [Cursor.remaining_inBytes]
      exact ⟨same.trans whole, goes_on, further⟩
    · rw [stays]
      simp [other]

example : ((ByteCursor.start 4 "é\tb:=".toList).walk? [.advance, .pass '\t', .passWord ['b', ':']]).map
    (fun c => (c.position, c.column, c.peek 0)) = some (5, 8, '=') := by decide +kernel

end VhdlFrontEnd.Text
