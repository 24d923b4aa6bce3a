/-!
# Columns and offsets

A line is a list of characters. A place on it is counted in two ways: by the byte offset in its
encoding, which text ranges use, and by the column, where a tab is as wide as the tab width and
any other character one wide. Main statements: both counts add up over a concatenation, and
cutting a text at the offset of a prefix gives that prefix back.
-/

namespace VhdlFrontEnd.Text

/-- The number of bytes of a text in UTF-8. -/
def byteLength : List Char → Nat
  | [] => 0
  | c :: cs => c.utf8Size + byteLength cs

/-- A tab is `tabWidth` columns wide and every other character one column. -/
def charWidth (tabWidth : Nat) (c : Char) : Nat := if c = '\t' then tabWidth else 1

/-- The number of columns a text takes. -/
def width (tabWidth : Nat) : List Char → Nat
  | [] => 0
  | c :: cs => charWidth tabWidth c + width tabWidth cs

/-- The column just after `before` at the start of a line; the first column is 1. -/
def columnAfter (tabWidth : Nat) (before : List Char) : Nat := width tabWidth before + 1

/-- The text cut in two at a byte offset, if that offset stands between two characters. -/
def cut? : List Char → Nat → Option (List Char × List Char)
  | cs, 0 => some ([], cs)
  | [], _ + 1 => none
  | c :: cs, n + 1 =>
    if c.utf8Size ≤ n + 1 then (cut? cs (n + 1 - c.utf8Size)).map fun (a, b) => (c :: a, b)
    else none

/-- The `length` bytes from offset `start`, if both ends stand between characters. -/
def slice? (cs : List Char) (start length : Nat) : Option (List Char) := do
  let (_, rest) ← cut? cs start
  let (inside, _) ← cut? rest length
  return inside

@[simp] theorem byteLength_nil : byteLength [] = 0 := rfl

@[simp] theorem byteLength_cons (c : Char) (cs : List Char) :
    byteLength (c :: cs) = c.utf8Size + byteLength cs := rfl

@[simp] theorem byteLength_append (a b : List Char) :
    byteLength (a ++ b) = byteLength a + byteLength b := by
  induction a with
  | nil => simp
  | cons c a ih => simp [ih]; omega

@[simp] theorem width_nil (w : Nat) : width w [] = 0 := rfl

@[simp] theorem width_cons (w : Nat) (c : Char) (cs : List Char) :
    width w (c :: cs) = charWidth w c + width w cs := rfl

@[simp] theorem width_append (w : Nat) (a b : List Char) :
    width w (a ++ b) = width w a + width w b := by
  induction a with
  | nil => simp
  | cons c a ih => simp [ih]; omega

@[simp] theorem cut?_zero (cs : List Char) : cut? cs 0 = some ([], cs) := by cases cs <;> rfl

/-- Cutting at the offset of a prefix gives that prefix and what follows it. -/
theorem cut?_append (a b : List Char) : cut? (a ++ b) (byteLength a) = some (a, b) := by
  induction a with
  | nil => simp
  | cons c a ih =>
    obtain ⟨n, hn⟩ : ∃ n, c.utf8Size = n + 1 :=
      ⟨c.utf8Size - 1, by have := c.utf8Size_pos; omega⟩
    have hsum : byteLength (c :: a) = (n + byteLength a) + 1 := by
      rw [byteLength_cons, hn]; omega
    rw [hsum, List.cons_append, cut?, if_pos (by omega),
      show n + byteLength a + 1 - c.utf8Size = byteLength a by omega, ih]
    rfl

theorem slice?_append (a b c : List Char) : slice? (a ++ (b ++ c)) (byteLength a) (byteLength b) = some b := by
  simp [slice?, cut?_append]

/-- Texts that start the same text and are equally long are the same. -/
theorem append_inj_of_byteLength {a b x y : List Char} (same : a ++ x = b ++ y)
    (long : byteLength a = byteLength b) : a = b ∧ x = y := by
  have cut := cut?_append b y
  rw [← same, ← long, cut?_append] at cut
  exact Prod.mk.inj (Option.some.inj cut)

end VhdlFrontEnd.Text
