import Mathlib
import VhdlFrontEnd.Lexeme.Operator
import VhdlFrontEnd.Text.Column
import VhdlFrontEnd.Text.Decode
import VhdlFrontEnd.Text.Identifier
import VhdlFrontEnd.Token.Kind

/-!
# Texts in upper case

Only the ASCII letters have a case here. No class of characters that is told apart tells a letter
from its upper case (`forall_toUpper`), so texts in upper case are cut, counted and compared as the
texts themselves are.
-/

namespace VhdlFrontEnd

namespace Text

/-- The text with its ASCII letters in upper case. -/
def upper (cs : List Char) : List Char := cs.map Char.toUpper

/-! ### Characters -/

theorem exists_of_isLower {c : Char} (lower : c.isLower) : ∃ n < 26, c = Char.ofNat (97 + n) := by
  simp only [Char.isLower, Bool.and_eq_true, decide_eq_true_eq, ge_iff_le, UInt32.le_iff_toNat_le] at lower
  have first : 97 ≤ c.toNat := lower.1
  have last : c.toNat ≤ 122 := lower.2
  refine ⟨c.toNat - 97, by omega, ?_⟩
  rw [Nat.add_sub_cancel' first, Char.ofNat_toNat]

/-- What holds of the letters and their upper case holds of every character and its upper case. -/
theorem forall_toUpper {α : Type} {f : Char → α}
    (letters : ∀ n < 26, f (Char.ofNat (97 + n)).toUpper = f (Char.ofNat (97 + n))) (c : Char) :
    f c.toUpper = f c := by
  by_cases lower : c.isLower
  · obtain ⟨n, small, rfl⟩ := exists_of_isLower lower
    exact letters n small
  · rw [Char.toUpper_eq_of_not_isLower lower]

@[simp] theorem isDigit_toUpper (c : Char) : c.toUpper.isDigit = c.isDigit := forall_toUpper (by decide) c

@[simp] theorem utf8Size_toUpper (c : Char) : c.toUpper.utf8Size = c.utf8Size := forall_toUpper (by decide) c

@[simp] theorem isBlank_toUpper (c : Char) : isBlank c.toUpper = isBlank c := forall_toUpper (by decide) c

@[simp] theorem isWordStart_toUpper (c : Char) : isWordStart c.toUpper = isWordStart c :=
  forall_toUpper (by decide) c

@[simp] theorem isWordChar_toUpper (c : Char) : isWordChar c.toUpper = isWordChar c :=
  forall_toUpper (by decide) c

@[simp] theorem isGraphic_toUpper (c : Char) : isGraphic c.toUpper = isGraphic c :=
  forall_toUpper (by decide) c

@[simp] theorem isAscii_toUpper (c : Char) : isAscii c.toUpper = isAscii c := forall_toUpper (by decide) c

@[simp] theorem digitValue?_toUpper (c : Char) : digitValue? c.toUpper = digitValue? c :=
  forall_toUpper (by decide) c

@[simp] theorem isDigitIn_toUpper (base : Nat) (c : Char) : isDigitIn base c.toUpper = isDigitIn base c := by
  rw [isDigitIn, isDigitIn, digitValue?_toUpper]

theorem toUpper_of_not_isAlpha {c : Char} (other : c.isAlpha = false) : c.toUpper = c := by
  refine Char.toUpper_eq_of_not_isLower fun lower => ?_
  simp [Char.isAlpha, lower] at other

/-- Only a letter is the upper case of another character. -/
theorem toUpper_eq_iff {c d : Char} (plain : d.isAlpha = false) : c.toUpper = d ↔ c = d := by
  constructor
  · rintro rfl
    rw [Char.isAlpha_toUpper_eq_isAlpha] at plain
    rw [toUpper_of_not_isAlpha plain]
  · rintro rfl
    exact toUpper_of_not_isAlpha plain

@[simp] theorem charWidth_toUpper (w : Nat) (c : Char) : charWidth w c.toUpper = charWidth w c := by
  simp only [charWidth, toUpper_eq_iff (d := '\t') rfl]

/-! ### Texts -/

@[simp] theorem upper_nil : upper [] = [] := rfl

@[simp] theorem upper_cons (c : Char) (cs : List Char) : upper (c :: cs) = c.toUpper :: upper cs := rfl

@[simp] theorem upper_append (a b : List Char) : upper (a ++ b) = upper a ++ upper b := List.map_append

@[simp] theorem length_upper (cs : List Char) : (upper cs).length = cs.length := List.length_map _

@[simp] theorem upper_eq_nil_iff {cs : List Char} : upper cs = [] ↔ cs = [] := List.map_eq_nil_iff

theorem upper_upper (cs : List Char) : upper (upper cs) = upper cs := by
  simp [upper]

theorem upper_of_not_isLower {cs : List Char} (none_lower : ∀ c ∈ cs, ¬ c.isLower) : upper cs = cs :=
  (List.map_congr_left fun c mem => Char.toUpper_eq_of_not_isLower (none_lower c mem)).trans (List.map_id' cs)

theorem upper_of_plain {cs : List Char} (plain : cs.any Char.isAlpha = false) : upper cs = cs := by
  refine upper_of_not_isLower fun c mem lower => List.any_eq_false.mp plain c mem ?_
  rw [Char.isAlpha, lower, Bool.or_true]

theorem upper_cons_of_plain {d : Char} (plain : d.isAlpha = false) (cs : List Char) :
    upper (d :: cs) = d :: upper cs := by
  rw [upper_cons, toUpper_of_not_isAlpha plain]

theorem head?_upper (cs : List Char) : (upper cs).head? = cs.head?.map Char.toUpper := List.head?_map

theorem getLast?_upper (cs : List Char) : (upper cs).getLast? = cs.getLast?.map Char.toUpper :=
  List.getLast?_map

/-- No letter is needed for a mark that a text in upper case starts with. -/
theorem upper_eq_cons_iff {cs rest : List Char} {d : Char} (plain : d.isAlpha = false) :
    upper cs = d :: rest ↔ ∃ front, cs = d :: front ∧ upper front = rest := by
  rw [upper, List.map_eq_cons_iff]
  simp only [toUpper_eq_iff plain]
  constructor
  · rintro ⟨c, front, rfl, rfl, same⟩
    exact ⟨front, rfl, same⟩
  · rintro ⟨front, rfl, same⟩
    exact ⟨d, front, rfl, rfl, same⟩

theorem map_toUpper_eq_some_iff {c? : Option Char} {d : Char} (plain : d.isAlpha = false) :
    c?.map Char.toUpper = some d ↔ c? = some d := by
  cases c? with
  | none => simp
  | some c => simp [toUpper_eq_iff plain]

theorem mem_upper_iff {cs : List Char} {d : Char} (plain : d.isAlpha = false) : d ∈ upper cs ↔ d ∈ cs := by
  rw [upper, List.mem_map]
  simp only [toUpper_eq_iff plain, exists_eq_right]

section Classes

variable {p : Char → Bool} (blind : ∀ c, p c.toUpper = p c)

include blind

theorem takeWhile_upper (cs : List Char) : (upper cs).takeWhile p = upper (cs.takeWhile p) := by
  rw [upper, List.takeWhile_map]
  simp only [Function.comp_def, blind]
  rfl

theorem dropWhile_upper (cs : List Char) : (upper cs).dropWhile p = upper (cs.dropWhile p) := by
  rw [upper, List.dropWhile_map]
  simp only [Function.comp_def, blind]
  rfl

theorem all_upper (cs : List Char) : (upper cs).all p = cs.all p := by
  rw [upper, List.all_map]
  simp only [Function.comp_def, blind]

theorem find?_upper (cs : List Char) : (upper cs).find? p = (cs.find? p).map Char.toUpper := by
  rw [upper, List.find?_map]
  simp only [Function.comp_def, blind]

end Classes

theorem isPrefixOf_upper {word : List Char} (plain : word.any Char.isAlpha = false) (cs : List Char) :
    word.isPrefixOf (upper cs) = word.isPrefixOf cs := by
  induction word generalizing cs with
  | nil => rfl
  | cons d word ih =>
    rw [List.any_cons, Bool.or_eq_false_iff] at plain
    obtain ⟨here, later⟩ := plain
    cases cs with
    | nil => rfl
    | cons c cs =>
      have same : (d == c.toUpper) = (d == c) := by
        rw [Bool.eq_iff_iff, beq_iff_eq, beq_iff_eq, eq_comm, toUpper_eq_iff here, eq_comm]
      rw [upper_cons, List.isPrefixOf, List.isPrefixOf, same, ih later]

theorem prefix_upper_iff {word : List Char} (plain : word.any Char.isAlpha = false) {cs : List Char} :
    word <+: upper cs ↔ word <+: cs := by
  rw [← List.isPrefixOf_iff_prefix, isPrefixOf_upper plain, List.isPrefixOf_iff_prefix]

/-! ### Places -/

@[simp] theorem byteLength_upper (cs : List Char) : byteLength (upper cs) = byteLength cs := by
  induction cs with
  | nil => rfl
  | cons c cs ih => simp [ih]

@[simp] theorem width_upper (w : Nat) (cs : List Char) : width w (upper cs) = width w cs := by
  induction cs with
  | nil => rfl
  | cons c cs ih => simp [ih]

@[simp] theorem columnAfter_upper (w : Nat) (cs : List Char) :
    columnAfter w (upper cs) = columnAfter w cs := by
  rw [columnAfter, columnAfter, width_upper]

theorem cut?_upper (cs : List Char) (n : Nat) :
    cut? (upper cs) n = (cut? cs n).map fun parts => (upper parts.1, upper parts.2) := by
  fun_induction cut? cs n with
  | case1 => simp
  | case2 => rfl
  | case3 c cs n fits ih =>
    rw [upper_cons, cut?, utf8Size_toUpper, if_pos fits, ih, Option.map_map, Option.map_map]
    rfl
  | case4 c cs n outside => rw [upper_cons, cut?, utf8Size_toUpper, if_neg outside, Option.map_none]

theorem slice?_upper (cs : List Char) (start length : Nat) :
    slice? (upper cs) start length = (slice? cs start length).map upper := by
  unfold slice?
  rw [cut?_upper]
  cases cut? cs start with
  | none => rfl
  | some parts =>
    dsimp only [Option.map_some, Option.bind_eq_bind, Option.bind_some]
    rw [cut?_upper]
    cases cut? parts.2 length <;> rfl

/-! ### Words -/

@[simp] theorem sameIgnoringCase_upper (a b : List Char) :
    sameIgnoringCase a (upper b) = sameIgnoringCase a b := by
  simp [sameIgnoringCase, upper, Function.comp_def]

@[simp] theorem upper_sameIgnoringCase (a b : List Char) :
    sameIgnoringCase (upper a) b = sameIgnoringCase a b := by
  simp [sameIgnoringCase, upper, Function.comp_def]

theorem hasDoubledUnderscore_upper (cs : List Char) :
    hasDoubledUnderscore (upper cs) = hasDoubledUnderscore cs := by
  have same (pair : Char × Char) : (Prod.map Char.toUpper Char.toUpper pair == ('_', '_')) = (pair == ('_', '_')) := by
    obtain ⟨a, b⟩ := pair
    rw [Bool.eq_iff_iff, beq_iff_eq, beq_iff_eq, Prod.map_apply, Prod.mk.injEq, Prod.mk.injEq,
      toUpper_eq_iff rfl, toUpper_eq_iff rfl]
  rw [hasDoubledUnderscore, hasDoubledUnderscore, upper, ← List.map_tail, List.zip_map, List.any_map]
  simp only [Function.comp_def, same]

theorem identifierProblem?_upper (word : List Char) :
    identifierProblem? (upper word) = identifierProblem? word := by
  cases word with
  | nil => rfl
  | cons first rest =>
    rw [upper_cons, identifierProblem?, identifierProblem?, ← upper_cons, hasDoubledUnderscore_upper,
      getLast?_upper, all_upper isWordChar_toUpper]
    simp only [toUpper_eq_iff (d := '_') rfl, Char.isAlpha_toUpper_eq_isAlpha, map_toUpper_eq_some_iff (d := '_') rfl]

/-! ### Lines -/

theorem splitOn_upper (cs : List Char) : (upper cs).splitOn '\n' = (cs.splitOn '\n').map upper := by
  induction cs with
  | nil => rfl
  | cons c cs ih =>
    have newline : (c.toUpper == '\n') = (c == '\n') := by
      rw [Bool.eq_iff_iff, beq_iff_eq, beq_iff_eq, toUpper_eq_iff rfl]
    rw [List.splitOn] at ih ⊢
    rw [List.splitOn, upper_cons, List.splitOnP_cons_eq_if_modifyHead, List.splitOnP_cons_eq_if_modifyHead,
      newline, ih, ← List.splitOn]
    cases cs.splitOn '\n' with
    | nil => split <;> rfl
    | cons piece pieces => split <;> rfl

theorem splitLines_upper (cs : List Char) : splitLines (upper cs) = (splitLines cs).map upper := by
  have last : ((cs.splitOn '\n').map upper).getLast? = some [] ↔ (cs.splitOn '\n').getLast? = some [] := by
    rw [List.getLast?_map]
    cases (cs.splitOn '\n').getLast? <;> simp
  unfold splitLines
  rw [splitOn_upper]
  simp only [last]
  split
  · rw [List.map_dropLast]
  · rfl

theorem dropReturn_upper (line : List Char) : dropReturn (upper line) = upper (dropReturn line) := by
  unfold dropReturn
  simp only [getLast?_upper, map_toUpper_eq_some_iff (d := '\r') rfl]
  split
  · exact List.map_dropLast.symm
  · rfl

theorem dropMark_upper (cs : List Char) : dropMark (upper cs) = upper (dropMark cs) := by
  by_cases mark : cs.head? = some '\ufeff'
  · obtain ⟨rest, rfl⟩ := List.head?_eq_some_iff.mp mark
    rfl
  · have upper_mark : (upper cs).head? ≠ some '\ufeff' := by
      rwa [head?_upper, ne_eq, map_toUpper_eq_some_iff rfl]
    rw [dropMark_of_head? mark, dropMark_of_head? upper_mark]

theorem physicalLines_upper (cs : List Char) : physicalLines (upper cs) = (physicalLines cs).map upper := by
  rw [physicalLines, physicalLines, dropMark_upper, splitLines_upper, List.map_map, List.map_map]
  simp only [Function.comp_def, dropReturn_upper]

end Text

namespace Keyword

@[simp] theorem ofWord?_upper (word : List Char) : ofWord? (Text.upper word) = ofWord? word := by
  simp [ofWord?, Text.upper, Function.comp_def]

end Keyword

theorem Symbol.plain_spelling (s : Symbol) : s.spelling.toList.any Char.isAlpha = false := by
  cases s <;> decide

namespace Lookahead

@[simp] theorem of?_toUpper (c : Char) : of? c.toUpper = of? c := Text.forall_toUpper (by decide) c

variable {c : Char} {l : Lookahead}

theorem plain_of_listed (known : of? c = some l) {x : String × Symbol} (listed : x ∈ l.symbols) :
    x.1.toList.any Char.isAlpha = false := by
  have plain := x.2.plain_spelling
  rw [spelled_of_mem (mem_of_of? known) x listed, List.any_cons, Bool.or_eq_false_iff] at plain
  exact plain.2

theorem find_upper (known : of? c = some l) (rest : List Char) : l.find (Text.upper rest) = l.find rest := by
  have same : l.more.find? (·.1.toList.isPrefixOf (Text.upper rest)) =
      l.more.find? (·.1.toList.isPrefixOf rest) :=
    List.find?_congr fun _ listed =>
      Text.isPrefixOf_upper (plain_of_listed known (List.mem_cons_of_mem _ listed)) rest
  rw [find, find, same]

theorem upper_find (known : of? c = some l) (rest : List Char) :
    Text.upper (l.find rest).1 = (l.find rest).1 := by
  obtain ⟨x, listed, found, -⟩ := find_mem l rest
  rw [found]
  exact Text.upper_of_plain (plain_of_listed known listed)

end Lookahead

end VhdlFrontEnd
