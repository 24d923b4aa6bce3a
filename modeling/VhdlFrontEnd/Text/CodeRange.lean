/-!
# Ranges of code points

A property of characters is kept as the closed ranges of code points that have it, in ascending
order and apart from each other.
-/

namespace VhdlFrontEnd.Text

/-- The first and the last code point of each range. -/
abbrev CodeRanges : Type := List (Nat × Nat)

namespace CodeRanges

/-- The character lies in one of the ranges. -/
def contains (rs : CodeRanges) (c : Char) : Bool :=
  rs.any fun (first, last) => first ≤ c.toNat && c.toNat ≤ last

/-- The ranges start at `least` or later, ascend, and do not touch. -/
def ascendFrom (least : Nat) : CodeRanges → Bool
  | [] => true
  | (first, last) :: rs => least ≤ first && first ≤ last && ascendFrom (last + 2) rs

/-- A character below the least code point of a table is not in it. -/
theorem contains_eq_false {least : Nat} {rs : CodeRanges} (h : ascendFrom least rs) {c : Char}
    (below : c.toNat < least) : contains rs c = false := by
  induction rs generalizing least with
  | nil => rfl
  | cons r rs ih =>
    obtain ⟨first, last⟩ := r
    simp only [ascendFrom, Bool.and_eq_true, decide_eq_true_eq] at h
    have later := ih h.2 (by omega)
    have outside : ¬ first ≤ c.toNat := by omega
    simp only [contains] at later ⊢
    simp [outside, later]

end CodeRanges

end VhdlFrontEnd.Text
