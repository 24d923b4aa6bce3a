import VhdlFrontEnd.Diagnostic.Basic

/-!
# What is shown to the user

Of the diagnostics of a run, a fallback gives way to any other report at its position, a report
made twice is shown once, and the rest is shown in the order of positions. Main statements: the
result is sorted, and it holds only what was reported.
-/

namespace VhdlFrontEnd.Diagnostic

/-- A fallback at a position that also has a report that is none. -/
def outranked (all : List Diagnostic) (d : Diagnostic) : Bool :=
  d.fallback && all.any fun e => !e.fallback && e.position == d.position

/-- The reports that are kept, in the order in which they arose: no outranked ones, and of equal
reports the first. -/
def kept (ds : List Diagnostic) : List Diagnostic :=
  (ds.filter fun d => !outranked ds d).eraseDupsBy sameReport

/-- The first report stands no later than the second. -/
def noLater (a b : Diagnostic) : Bool := a.position.le b.position

/-- The reports that are kept, by position; at one position they stay in the order in which they
arose. -/
def reportable (ds : List Diagnostic) : List Diagnostic :=
  (kept ds).mergeSort noLater

/-- The number of errors among the reports that are shown. -/
def reportableErrors (ds : List Diagnostic) : Nat := errorCount (reportable ds)

theorem reportable_perm_kept (ds : List Diagnostic) : (reportable ds).Perm (kept ds) :=
  List.mergeSort_perm _ _

/-- Induction along the removal of duplicates: from what is left of the rest to the whole list. -/
theorem eraseDupsBy_induction {α : Type} (same : α → α → Bool) {motive : List α → Prop} (nil : motive [])
    (cons : ∀ x rest, motive (rest.filter fun y => decide (same y x = false)) → motive (x :: rest)) :
    ∀ xs, motive xs
  | [] => nil
  | x :: rest => by
    have shorter := List.length_filter_le (fun y => decide (same y x = false)) rest
    exact cons x rest (eraseDupsBy_induction same nil cons _)
termination_by xs => xs.length
decreasing_by exact Nat.lt_succ_of_le shorter

theorem eraseDupsBy_sublist {α : Type} (same : α → α → Bool) (xs : List α) :
    (xs.eraseDupsBy same).Sublist xs := by
  induction xs using eraseDupsBy_induction same with
  | nil => exact List.Sublist.refl []
  | cons x rest kept =>
    rw [List.eraseDupsBy_cons]
    exact (kept.trans List.filter_sublist).cons_cons x

/-- What is kept stays in the order in which it arose. -/
theorem kept_sublist (ds : List Diagnostic) : (kept ds).Sublist ds :=
  (eraseDupsBy_sublist sameReport _).trans List.filter_sublist

theorem reportable_subset (ds : List Diagnostic) : reportable ds ⊆ ds := fun _ shown =>
  (kept_sublist ds).subset ((reportable_perm_kept ds).mem_iff.mp shown)

theorem noLater_trans (a b c : Diagnostic) (hab : noLater a b) (hbc : noLater b c) :
    noLater a c :=
  Position.le_trans hab hbc

theorem noLater_total (a b : Diagnostic) : (noLater a b || noLater b a) = true :=
  Position.le_total a.position b.position

theorem reportable_sorted (ds : List Diagnostic) :
    (reportable ds).Pairwise fun a b => noLater a b :=
  List.pairwise_mergeSort noLater_trans noLater_total _

end VhdlFrontEnd.Diagnostic
