import VhdlFrontEnd.Diagnostic.Reportable

/-!
# When nothing is suppressed

`StablySorted` says what it means to show reports in the order of positions, and fixes the order
(`StablySorted.unique`). `reportable_stablySorted` shows that reports which differ from each other,
and of which none gives way to another, are all shown.
-/

namespace VhdlFrontEnd.Diagnostic

/-- The reports in the order of positions; those at one position stay in the order they had. -/
structure StablySorted (ds shown : List Diagnostic) : Prop where
  perm : shown.Perm ds
  sorted : shown.Pairwise fun d e => noLater d e
  stable : ∀ p, shown.filter (·.position == p) = ds.filter (·.position == p)

variable {ds xs ys : List Diagnostic} {d e : Diagnostic}

/-! ### The order of what is shown -/

theorem noLater_of_same_position (same : d.position = e.position) : noLater d e := by
  rw [noLater, same]
  exact Position.le_refl e.position

theorem filter_mergeSort (ds : List Diagnostic) (p : Position) :
    (ds.mergeSort noLater).filter (·.position == p) = ds.filter (·.position == p) := by
  have together : (ds.filter (·.position == p)).Pairwise fun d e => noLater d e := by
    refine List.pairwise_of_forall_mem_list fun d hd e he => noLater_of_same_position ?_
    rw [beq_iff_eq.mp (List.mem_filter.mp hd).2, beq_iff_eq.mp (List.mem_filter.mp he).2]
  have kept := List.sublist_mergeSort noLater_trans noLater_total together List.filter_sublist
  have here := kept.filter (·.position == p)
  rw [List.filter_filter] at here
  simp only [Bool.and_self] at here
  exact (here.eq_of_length ((List.mergeSort_perm ds noLater).filter _).length_eq.symm).symm

theorem stablySorted_mergeSort (ds : List Diagnostic) : StablySorted ds (ds.mergeSort noLater) :=
  ⟨List.mergeSort_perm ds noLater, List.pairwise_mergeSort noLater_trans noLater_total ds,
    filter_mergeSort ds⟩

/-- Both lists hold the same reports at each position, in the same order. -/
def AgreeByPosition (xs ys : List Diagnostic) : Prop :=
  ∀ p, xs.filter (·.position == p) = ys.filter (·.position == p)

theorem AgreeByPosition.mem (agree : AgreeByPosition xs ys) (mem : d ∈ xs) : d ∈ ys := by
  have here : d ∈ xs.filter (·.position == d.position) := List.mem_filter.mpr ⟨mem, beq_self_eq_true _⟩
  rw [agree] at here
  exact (List.mem_filter.mp here).1

theorem AgreeByPosition.symm (agree : AgreeByPosition xs ys) : AgreeByPosition ys xs := fun p => (agree p).symm

theorem AgreeByPosition.tail (agree : AgreeByPosition (d :: xs) (d :: ys)) : AgreeByPosition xs ys := by
  intro p
  have here := agree p
  rw [List.filter_cons, List.filter_cons] at here
  split at here
  · exact (List.cons.inj here).2
  · exact here

theorem noLater_head (sorted : (d :: xs).Pairwise fun d e => noLater d e) (mem : e ∈ d :: xs) :
    noLater d e := by
  rcases List.mem_cons.mp mem with rfl | later
  · exact Position.le_refl _
  · exact (List.pairwise_cons.mp sorted).1 e later

/-- Sorted lists that agree at each position are equal. -/
theorem AgreeByPosition.eq_of_sorted (agree : AgreeByPosition xs ys)
    (hx : xs.Pairwise fun d e => noLater d e) (hy : ys.Pairwise fun d e => noLater d e) : xs = ys := by
  induction xs generalizing ys with
  | nil =>
    cases ys with
    | nil => rfl
    | cons y ys => exact absurd (agree.symm.mem List.mem_cons_self) List.not_mem_nil
  | cons x xs ih =>
    cases ys with
    | nil => exact absurd (agree.mem List.mem_cons_self) List.not_mem_nil
    | cons y ys =>
      -- Each head stands in the other list too, so both stand at the least position.
      have same : x.position = y.position := Position.le_antisymm
        (noLater_head hx (agree.symm.mem List.mem_cons_self))
        (noLater_head hy (agree.mem List.mem_cons_self))
      have heads := agree x.position
      rw [List.filter_cons, List.filter_cons, ← same, beq_self_eq_true, if_pos rfl, if_pos rfl] at heads
      obtain ⟨rfl, -⟩ := List.cons.inj heads
      rw [ih agree.tail (List.pairwise_cons.mp hx).2 (List.pairwise_cons.mp hy).2]

theorem StablySorted.unique (hx : StablySorted ds xs) (hy : StablySorted ds ys) : xs = ys := by
  have agree : AgreeByPosition xs ys := fun p => (hx.stable p).trans (hy.stable p).symm
  exact agree.eq_of_sorted hx.sorted hy.sorted

theorem AgreeByPosition.perm (agree : AgreeByPosition xs ys) : xs.Perm ys := by
  rw [List.perm_iff_count]
  intro d
  have counted (ds : List Diagnostic) : (ds.filter (·.position == d.position)).count d = ds.count d :=
    List.count_filter (beq_self_eq_true d.position)
  rw [← counted, agree, counted]

theorem StablySorted.of_agree {es : List Diagnostic} (h : StablySorted ds xs) (agree : AgreeByPosition ds es) :
    StablySorted es xs :=
  ⟨h.perm.trans agree.perm, h.sorted, fun p => (h.stable p).trans (agree p)⟩

theorem StablySorted.append {es : List Diagnostic} (first : StablySorted ds xs) (second : StablySorted es ys)
    (ordered : ∀ d ∈ ds, ∀ e ∈ es, noLater d e) : StablySorted (ds ++ es) (xs ++ ys) := by
  refine ⟨first.perm.append second.perm, ?_, fun p => ?_⟩
  · refine List.pairwise_append.mpr ⟨first.sorted, second.sorted, fun d hd e he => ?_⟩
    exact ordered d (first.perm.mem_iff.mp hd) e (second.perm.mem_iff.mp he)
  · rw [List.filter_append, List.filter_append, first.stable, second.stable]

/-! ### What is kept -/

/-- No two of the reports are the same report. -/
def Distinct (ds : List Diagnostic) : Prop := ds.Pairwise fun d e => ¬ d.sameReport e

/-- No fallback stands at the position of a report that is none. -/
def NoneOutranked (ds : List Diagnostic) : Prop :=
  ∀ d ∈ ds, d.fallback → ∀ e ∈ ds, ¬ e.fallback → d.position ≠ e.position

theorem eraseDupsBy_of_distinct (distinct : Distinct ds) : ds.eraseDupsBy sameReport = ds := by
  induction ds with
  | nil => rfl
  | cons d ds ih =>
    obtain ⟨first, distinct⟩ := List.pairwise_cons.mp distinct
    have all_kept : ds.filter (fun e => decide (e.sameReport d = false)) = ds := by
      rw [List.filter_eq_self]
      intro e mem
      refine decide_eq_true (Bool.eq_false_iff.mpr fun same => first e mem ?_)
      rw [sameReport_iff] at same ⊢
      exact ⟨same.1.symm, same.2.symm⟩
    rw [List.eraseDupsBy_cons, all_kept, ih distinct]

theorem kept_eq_self (distinct : Distinct ds) (none : NoneOutranked ds) : kept ds = ds := by
  have all_kept : (ds.filter fun d => !outranked ds d) = ds := by
    rw [List.filter_eq_self]
    intro d mem
    rw [outranked, Bool.not_eq_true', Bool.and_eq_false_imp]
    intro fallback
    rw [List.any_eq_false]
    intro e other both
    rw [Bool.and_eq_true, Bool.not_eq_true', beq_iff_eq] at both
    exact none d mem fallback e other (by simp [both.1]) both.2.symm
  rw [kept, all_kept, eraseDupsBy_of_distinct distinct]

/-- Where no report gives way to another and none is made twice, all of them are shown. -/
theorem reportable_stablySorted (distinct : Distinct ds) (none : NoneOutranked ds) :
    StablySorted ds (reportable ds) := by
  rw [reportable, kept_eq_self distinct none]
  exact stablySorted_mergeSort ds

end VhdlFrontEnd.Diagnostic
