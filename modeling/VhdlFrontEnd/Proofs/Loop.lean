import Mathlib.Data.PFun

/-!
# Loops

A loop whose turns can give nothing, and that need not end, as the fixed point of its turn. What it comes to is told by
one turn (`loop?_eq`).
-/

namespace VhdlFrontEnd

variable {σ β : Type}

/-- A turn that can give nothing, as a partial function. -/
def partialTurn (turn : σ → Option (β ⊕ σ)) : σ →. β ⊕ σ := fun s => Part.ofOption (turn s)

theorem mem_partialTurn {turn : σ → Option (β ⊕ σ)} {s : σ} {x : β ⊕ σ} : x ∈ partialTurn turn s ↔ x ∈ turn s :=
  Part.mem_ofOption

open Classical in
/-- From a state on, turn by turn, to a result. There is none if a turn gives nothing, or if the turns do not end. -/
noncomputable def loop? (turn : σ → Option (β ⊕ σ)) (s : σ) : Option β := ((partialTurn turn).fix s).toOption

theorem mem_loop?_iff {turn : σ → Option (β ⊕ σ)} {s : σ} {b : β} :
    b ∈ loop? turn s ↔ .inl b ∈ turn s ∨ ∃ t, .inr t ∈ turn s ∧ b ∈ loop? turn t := by
  have mem_fix (s : σ) : b ∈ loop? turn s ↔ b ∈ (partialTurn turn).fix s := by
    simp only [loop?, Part.mem_toOption]
  rw [mem_fix, PFun.mem_fix_iff]
  simp only [mem_fix, mem_partialTurn]

/-- What one turn gives, or the loop from where it leads. -/
theorem loop?_eq (turn : σ → Option (β ⊕ σ)) (s : σ) : loop? turn s = (turn s).bind (Sum.elim some (loop? turn)) := by
  refine Option.ext fun b => mem_loop?_iff.trans ?_
  cases turn s with
  | none => simp
  | some next => cases next <;> simp [eq_comm]

end VhdlFrontEnd
