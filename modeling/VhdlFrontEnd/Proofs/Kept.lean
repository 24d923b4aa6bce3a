import VhdlFrontEnd.Proofs.Shown

/-!
# What suppression keeps

Suppression looks at each position alone, and there it keeps the first of equal reports among those
that give way to none. So reports can be suppressed before or after they are merged
(`suppression_merges`), and every position keeps its best reports (`best_reports_shown`).
-/

namespace VhdlFrontEnd.Diagnostic

variable {ds es : List Diagnostic} {d e x : Diagnostic} {q : Diagnostic → Bool}

/-! ### Equal reports -/

theorem sameReport_refl (d : Diagnostic) : d.sameReport d := sameReport_iff.mpr ⟨rfl, rfl⟩

theorem sameReport_comm (d e : Diagnostic) : d.sameReport e = e.sameReport d := by
  rw [Bool.eq_iff_iff, sameReport_iff, sameReport_iff, eq_comm, eq_comm (a := d.message)]

/-- Equal reports are equal to the same reports. -/
theorem sameReport_congr (same : d.sameReport e) (x : Diagnostic) : d.sameReport x = e.sameReport x := by
  obtain ⟨position, message⟩ := sameReport_iff.mp same
  rw [sameReport, sameReport, position, message]

/-- The reports that are none of those equal to `x`. -/
def others (x : Diagnostic) (ds : List Diagnostic) : List Diagnostic :=
  ds.filter fun d => decide (d.sameReport x = false)

theorem mem_others : d ∈ others x ds ↔ d ∈ ds ∧ ¬ d.sameReport x := by
  simp [others]

theorem others_append (x : Diagnostic) (ds es : List Diagnostic) :
    others x (ds ++ es) = others x ds ++ others x es :=
  List.filter_append ds es

theorem filter_others (x : Diagnostic) (ds : List Diagnostic) :
    (others x ds).filter q = others x (ds.filter q) := by
  rw [others, others, List.filter_filter, List.filter_filter]
  exact List.filter_congr fun d _ => Bool.and_comm _ _

/-- The list without the reports that an earlier one is equal to. -/
def firsts (ds : List Diagnostic) : List Diagnostic := ds.eraseDupsBy sameReport

@[simp] theorem firsts_nil : firsts [] = [] := rfl

theorem firsts_cons (x : Diagnostic) (ds : List Diagnostic) : firsts (x :: ds) = x :: firsts (others x ds) :=
  List.eraseDupsBy_cons

/-- Induction along the firsts: from the reports that the first is not equal to. -/
theorem firsts_induction {motive : List Diagnostic → Prop} (nil : motive [])
    (cons : ∀ x rest, motive (others x rest) → motive (x :: rest)) (ds : List Diagnostic) : motive ds :=
  eraseDupsBy_induction sameReport nil cons ds

theorem firsts_sublist (ds : List Diagnostic) : (firsts ds).Sublist ds := eraseDupsBy_sublist sameReport ds

theorem distinct_firsts (ds : List Diagnostic) : Distinct (firsts ds) := by
  induction ds using firsts_induction with
  | nil => exact .nil
  | cons x rest ih =>
    rw [firsts_cons]
    refine List.pairwise_cons.mpr ⟨fun d mem same => ?_, ih⟩
    rw [sameReport_comm] at same
    exact (mem_others.mp ((firsts_sublist _).subset mem)).2 same

/-- Of the reports equal to `d`, the first stays the first. -/
theorem find?_firsts (ds : List Diagnostic) (d : Diagnostic) :
    (firsts ds).find? (·.sameReport d) = ds.find? (·.sameReport d) := by
  induction ds using firsts_induction with
  | nil => rfl
  | cons x rest ih =>
    rw [firsts_cons, List.find?_cons, List.find?_cons, ih]
    cases first : x.sameReport d with
    | true => rfl
    | false =>
      rw [others, List.find?_filter]
      refine congrArg (List.find? · rest) (funext fun y => ?_)
      rw [Bool.eq_iff_iff, decide_eq_true_iff, decide_eq_true_iff, and_iff_right_iff_imp]
      intro like
      rw [Bool.eq_false_iff]
      intro same
      rw [← sameReport_congr same, like] at first
      exact nomatch first

/-- A class of reports that does not tell equal ones apart can be picked out before or after. -/
theorem filter_firsts (alike : ∀ d ∈ ds, ∀ e ∈ ds, d.sameReport e → q d = q e) :
    (firsts ds).filter q = firsts (ds.filter q) := by
  induction ds using firsts_induction with
  | nil => rfl
  | cons x rest ih =>
    have inside {d : Diagnostic} (mem : d ∈ others x rest) : d ∈ x :: rest :=
      List.mem_cons_of_mem x (mem_others.mp mem).1
    have later := ih fun d hd e he => alike d (inside hd) e (inside he)
    rw [filter_others] at later
    rw [firsts_cons]
    cases first : q x with
    | true => rw [List.filter_cons_of_pos first, List.filter_cons_of_pos first, firsts_cons, later]
    | false =>
      -- No report equal to `x` is picked, so none has to be left out.
      have all_others : others x (rest.filter q) = rest.filter q := by
        rw [others, List.filter_eq_self]
        intro d mem
        obtain ⟨mem, picked⟩ := List.mem_filter.mp mem
        refine decide_eq_true (Bool.eq_false_iff.mpr fun same => ?_)
        rw [alike d (List.mem_cons_of_mem x mem) x List.mem_cons_self same, first] at picked
        exact Bool.false_ne_true picked
      rw [List.filter_cons_of_neg (by simp [first]), List.filter_cons_of_neg (by simp [first]), later,
        all_others]

theorem others_firsts (x : Diagnostic) (ds : List Diagnostic) : others x (firsts ds) = firsts (others x ds) :=
  filter_firsts fun d _ e _ same => by rw [sameReport_congr same]

theorem firsts_append_left (ds es : List Diagnostic) : firsts (firsts ds ++ es) = firsts (ds ++ es) := by
  induction ds using firsts_induction generalizing es with
  | nil => rfl
  | cons x rest ih =>
    have all_others : others x (others x rest) = others x rest := by
      rw [others, List.filter_eq_self]
      exact fun d mem => decide_eq_true (Bool.eq_false_iff.mpr (mem_others.mp mem).2)
    rw [firsts_cons, List.cons_append, List.cons_append, firsts_cons, firsts_cons, others_append,
      others_append, others_firsts, all_others, ih]

theorem firsts_firsts (ds : List Diagnostic) : firsts (firsts ds) = firsts ds := by
  have left := firsts_append_left ds []
  rwa [List.append_nil, List.append_nil] at left

theorem firsts_append_right (ds es : List Diagnostic) : firsts (ds ++ firsts es) = firsts (ds ++ es) := by
  induction ds using firsts_induction generalizing es with
  | nil => exact firsts_firsts es
  | cons x rest ih =>
    rw [List.cons_append, List.cons_append, firsts_cons, firsts_cons, others_append, others_append,
      others_firsts, ih]

/-! ### Reports that give way -/

theorem outranked_iff : outranked ds d ↔ d.fallback ∧ ∃ e ∈ ds, ¬ e.fallback ∧ e.position = d.position := by
  simp [outranked]

/-- Only fallbacks give way. -/
theorem not_outranked (no_fallback : ¬ d.fallback) : ¬ outranked ds d := by
  intro below
  exact no_fallback (outranked_iff.mp below).1

theorem outranked_append (ds es : List Diagnostic) (d : Diagnostic) :
    outranked (ds ++ es) d = (outranked ds d || outranked es d) := by
  rw [outranked, List.any_append, Bool.and_or_distrib_left]
  rfl

theorem outranked_perm (perm : ds.Perm es) (d : Diagnostic) : outranked ds d = outranked es d := by
  rw [outranked, perm.any_eq]
  rfl

/-- Whether a report gives way is settled at its position. -/
theorem outranked_filter (ds : List Diagnostic) (d : Diagnostic) :
    outranked (ds.filter (·.position == d.position)) d = outranked ds d := by
  rw [outranked, outranked, List.any_filter]
  refine congrArg (d.fallback && List.any ds ·) (funext fun e => ?_)
  rw [Bool.and_left_comm, Bool.and_self]

/-- The reports that give way to none. -/
def ranked (ds : List Diagnostic) : List Diagnostic := ds.filter fun d => !outranked ds d

theorem kept_eq (ds : List Diagnostic) : kept ds = firsts (ranked ds) := rfl

theorem mem_ranked : d ∈ ranked ds ↔ d ∈ ds ∧ ¬ outranked ds d := by
  simp [ranked]

/-- At one position either all reports that give way to none are fallbacks or none is. -/
theorem fallback_of_ranked (hd : d ∈ ranked ds) (he : e ∈ ranked ds) (same : d.position = e.position) :
    d.fallback = e.fallback := by
  have no_mix {d e : Diagnostic} (hd : d ∈ ranked ds) (he : e ∈ ranked ds) (same : d.position = e.position)
      (fallback : d.fallback) : e.fallback := by
    refine Decidable.not_not.mp fun no_fallback => (mem_ranked.mp hd).2 ?_
    exact outranked_iff.mpr ⟨fallback, e, (mem_ranked.mp he).1, no_fallback, same.symm⟩
  rw [Bool.eq_iff_iff]
  exact ⟨no_mix hd he same, no_mix he hd same.symm⟩

/-- Of the reports equal to `d` that give way to none, the first is kept. -/
theorem find?_kept (ds : List Diagnostic) (d : Diagnostic) :
    (kept ds).find? (·.sameReport d) = ds.find? fun e => !outranked ds e && e.sameReport d := by
  rw [kept_eq, find?_firsts, ranked, List.find?_filter]
  simp only [Bool.decide_and, Bool.decide_eq_true]

theorem exists_kept (mem : d ∈ ds) (best : ¬ outranked ds d) : ∃ e ∈ kept ds, e.sameReport d := by
  cases found : (kept ds).find? (·.sameReport d) with
  | some e =>
    have same := List.find?_some found
    exact ⟨e, List.mem_of_find?_eq_some found, same⟩
  | none =>
    rw [find?_kept, List.find?_eq_none] at found
    exact absurd (by simp [best, sameReport_refl]) (found d mem)

/-- What is kept makes the same reports give way as all reports do. -/
theorem outranked_kept (ds : List Diagnostic) (d : Diagnostic) : outranked (kept ds) d = outranked ds d := by
  rw [Bool.eq_iff_iff, outranked_iff, outranked_iff]
  refine and_congr_right fun _ => ⟨?_, ?_⟩
  · rintro ⟨e, mem, rank⟩
    exact ⟨e, (kept_sublist ds).subset mem, rank⟩
  · rintro ⟨e, mem, no_fallback, here⟩
    have best : e ∈ ranked ds := mem_ranked.mpr ⟨mem, not_outranked no_fallback⟩
    obtain ⟨k, stays, same⟩ := exists_kept mem (not_outranked no_fallback)
    have position := (sameReport_iff.mp same).1
    refine ⟨k, stays, ?_, position.trans here⟩
    rwa [fallback_of_ranked ((firsts_sublist _).subset stays) best position]

/-! ### Suppression before and after merging -/

theorem filter_kept_append (ds es : List Diagnostic) :
    (kept ds).filter (fun d => !outranked (ds ++ es) d) =
      firsts (ds.filter fun d => !outranked (ds ++ es) d) := by
  rw [kept_eq, filter_firsts]
  · rw [ranked, List.filter_filter]
    refine congrArg firsts (List.filter_congr fun d _ => ?_)
    rw [outranked_append, Bool.not_or, Bool.and_right_comm, Bool.and_self]
  · intro d hd e he same
    have position := (sameReport_iff.mp same).1
    rw [outranked, outranked, fallback_of_ranked hd he position, position]

theorem kept_merged (ds es : List Diagnostic) : kept (kept ds ++ kept es) = kept (ds ++ es) := by
  have ranks (d : Diagnostic) : outranked (kept ds ++ kept es) d = outranked (ds ++ es) d := by
    rw [outranked_append, outranked_kept, outranked_kept, ← outranked_append]
  have behind : (kept es).filter (fun d => !outranked (ds ++ es) d) =
      firsts (es.filter fun d => !outranked (ds ++ es) d) := by
    have swapped (d : Diagnostic) : outranked (ds ++ es) d = outranked (es ++ ds) d :=
      outranked_perm List.perm_append_comm d
    simp only [swapped]
    exact filter_kept_append es ds
  calc kept (kept ds ++ kept es)
    _ = firsts ((kept ds ++ kept es).filter fun d => !outranked (ds ++ es) d) := by
      simp only [kept_eq (kept ds ++ kept es), ranked, ranks]
    _ = firsts (firsts (ds.filter fun d => !outranked (ds ++ es) d) ++
          firsts (es.filter fun d => !outranked (ds ++ es) d)) := by
      rw [List.filter_append, filter_kept_append, behind]
    _ = firsts (ds.filter (fun d => !outranked (ds ++ es) d) ++
          es.filter fun d => !outranked (ds ++ es) d) := by
      rw [firsts_append_left, firsts_append_right]
    _ = kept (ds ++ es) := by
      rw [kept_eq, ranked, List.filter_append]

/-- Suppression looks at each position alone. -/
theorem filter_kept (ds : List Diagnostic) (p : Position) :
    (kept ds).filter (·.position == p) = kept (ds.filter (·.position == p)) := by
  rw [kept_eq, kept_eq, filter_firsts]
  · rw [ranked, ranked, List.filter_filter, List.filter_filter]
    refine congrArg firsts (List.filter_congr fun d _ => ?_)
    cases here : d.position == p with
    | false => simp
    | true =>
      obtain rfl := beq_iff_eq.mp here
      rw [outranked_filter, Bool.and_comm]
  · intro d _ e _ same
    rw [(sameReport_iff.mp same).1]

theorem filter_reportable (ds : List Diagnostic) (p : Position) :
    (reportable ds).filter (·.position == p) = kept (ds.filter (·.position == p)) := by
  rw [reportable, filter_mergeSort, filter_kept]

/-- What is shown depends only on the reports at each position and on their order there. -/
theorem AgreeByPosition.reportable_eq (agree : AgreeByPosition ds es) : reportable ds = reportable es := by
  have alike : AgreeByPosition (reportable ds) (reportable es) := fun p => by
    rw [filter_reportable, filter_reportable, agree]
  exact alike.eq_of_sorted (reportable_sorted ds) (reportable_sorted es)

theorem agree_reportable (ds : List Diagnostic) : AgreeByPosition (reportable ds) (kept ds) :=
  filter_mergeSort (kept ds)

theorem AgreeByPosition.append {ds' es' : List Diagnostic} (first : AgreeByPosition ds ds')
    (second : AgreeByPosition es es') : AgreeByPosition (ds ++ es) (ds' ++ es') := fun p => by
  rw [List.filter_append, List.filter_append, first, second]

theorem reportable_merged (ds es : List Diagnostic) :
    reportable (reportable ds ++ reportable es) = reportable (ds ++ es) := by
  rw [((agree_reportable ds).append (agree_reportable es)).reportable_eq, reportable, kept_merged]
  rfl

theorem reportable_reportable (ds : List Diagnostic) : reportable (reportable ds) = reportable ds := by
  have alone := reportable_merged ds []
  rwa [List.append_nil, show reportable [] = [] from List.mergeSort_nil, List.append_nil] at alone

/-- Reports that several collectors hold can be suppressed in each of them before they are merged, or
only afterwards; and nothing is left to suppress in what is shown. -/
theorem suppression_merges (ds es : List Diagnostic) :
    reportable (ds ++ es) = reportable (reportable ds ++ reportable es) ∧
      reportable (reportable ds) = reportable ds ∧
      ∀ collectors : List (List Diagnostic),
        reportable (collectors.map reportable).flatten = reportable collectors.flatten := by
  refine ⟨(reportable_merged ds es).symm, reportable_reportable ds, fun collectors => ?_⟩
  induction collectors with
  | nil => rfl
  | cons first collectors ih =>
    rw [List.map_cons, List.flatten_cons, List.flatten_cons, ← reportable_merged, reportable_reportable, ih,
      reportable_merged]

/-! ### The best reports -/

/-- Of the reports that are shown of `ds`, those at one position stand in their order in `ds`; no two
are equal; and no fallback stands with one that is none. Nothing is lost: a report that is no fallback
is shown as the first of those equal to it, and a fallback too, unless its position has a report that
is none. -/
structure ShowsBest (ds shown : List Diagnostic) : Prop where
  sorted : shown.Pairwise fun d e => noLater d e
  in_order : ∀ p, (shown.filter (·.position == p)).Sublist (ds.filter (·.position == p))
  distinct : shown.Pairwise fun d e => ¬ (d.position = e.position ∧ d.message = e.message)
  unmixed : ∀ d ∈ shown, ∀ e ∈ shown, d.position = e.position → d.fallback = e.fallback
  position : ∀ d ∈ ds, ∃ e ∈ shown, e.position = d.position
  first : ∀ d ∈ ds, ¬ d.fallback → ∃ e ∈ shown, ds.find? (fun e => !e.fallback && e.sameReport d) = some e
  fallback : ∀ d ∈ ds, d.fallback → (¬ ∃ e ∈ ds, ¬ e.fallback ∧ e.position = d.position) →
    ∃ e ∈ shown, e.position = d.position ∧ e.message = d.message

theorem mem_reportable : d ∈ reportable ds ↔ d ∈ kept ds := (reportable_perm_kept ds).mem_iff

theorem ranked_of_reportable (shown : d ∈ reportable ds) : d ∈ ranked ds :=
  (firsts_sublist _).subset (mem_reportable.mp shown)

/-- The problems that are shown are those reported by some report that gives way to none. -/
theorem exists_reportable_iff {p : Position} {message : String} :
    (∃ d ∈ reportable ds, d.position = p ∧ d.message = message) ↔
      ∃ d ∈ ds, ¬ outranked ds d ∧ d.position = p ∧ d.message = message := by
  constructor
  · rintro ⟨d, shown, here⟩
    obtain ⟨mem, best⟩ := mem_ranked.mp (ranked_of_reportable shown)
    exact ⟨d, mem, best, here⟩
  · rintro ⟨d, mem, best, rfl, rfl⟩
    obtain ⟨e, stays, same⟩ := exists_kept mem best
    exact ⟨e, mem_reportable.mpr stays, sameReport_iff.mp same⟩

/-- Where a report is none, the reports equal to it that give way to none are those that are none. -/
theorem find?_kept_of_primary (mem : d ∈ ds) (no_fallback : ¬ d.fallback) :
    ds.find? (fun e => !e.fallback && e.sameReport d) = (kept ds).find? (·.sameReport d) := by
  rw [find?_kept]
  refine congrArg (List.find? · ds) (funext fun e => ?_)
  cases same : e.sameReport d with
  | false => rw [Bool.and_false, Bool.and_false]
  | true =>
    have gives_way : outranked ds e = e.fallback := by
      rw [Bool.eq_iff_iff, outranked_iff]
      exact and_iff_left ⟨d, mem, no_fallback, (sameReport_iff.mp same).1.symm⟩
    rw [gives_way]

theorem showsBest_reportable (ds : List Diagnostic) : ShowsBest ds (reportable ds) := by
  have same_problem {d : Diagnostic} (mem : d ∈ ds) (best : ¬ outranked ds d) :=
    exists_reportable_iff.mpr ⟨d, mem, best, rfl, rfl⟩
  constructor
  case sorted => exact reportable_sorted ds
  case in_order =>
    intro p
    rw [agree_reportable ds p]
    exact (kept_sublist ds).filter _
  case distinct =>
    have apart : Distinct (reportable ds) :=
      (reportable_perm_kept ds).symm.pairwise (distinct_firsts _) fun differ => by rwa [sameReport_comm]
    exact apart.imp fun differ same => differ (sameReport_iff.mpr same)
  case unmixed =>
    exact fun d hd e he => fallback_of_ranked (ranked_of_reportable hd) (ranked_of_reportable he)
  case position =>
    intro d mem
    by_cases below : outranked ds d
    · obtain ⟨-, e, primary, no_fallback, here⟩ := outranked_iff.mp below
      obtain ⟨k, shown, at_e, -⟩ := same_problem primary (not_outranked no_fallback)
      exact ⟨k, shown, at_e.trans here⟩
    · obtain ⟨k, shown, here, -⟩ := same_problem mem below
      exact ⟨k, shown, here⟩
  case first =>
    intro d mem no_fallback
    obtain ⟨e, stays, same⟩ := exists_kept mem (not_outranked no_fallback)
    rw [find?_kept_of_primary mem no_fallback]
    cases found : (kept ds).find? (·.sameReport d) with
    | none => exact absurd same (List.find?_eq_none.mp found e stays)
    | some k => exact ⟨k, mem_reportable.mpr (List.mem_of_find?_eq_some found), rfl⟩
  case fallback =>
    intro d mem fallback alone
    exact same_problem mem fun below => alone (outranked_iff.mp below).2

/-- What is shown is the best of all reports, and which problems are shown where does not depend on the
order in which they were reported. -/
theorem best_reports_shown (ds : List Diagnostic) :
    ShowsBest ds (reportable ds) ∧
      ∀ es, ds.Perm es → ∀ p message,
        (∃ d ∈ reportable ds, d.position = p ∧ d.message = message) ↔
          ∃ d ∈ reportable es, d.position = p ∧ d.message = message := by
  refine ⟨showsBest_reportable ds, fun es perm p message => ?_⟩
  rw [exists_reportable_iff, exists_reportable_iff]
  refine exists_congr fun d => ?_
  rw [perm.mem_iff, outranked_perm perm]

/-- Of two equal reports the first is shown, though the second has another level. A fallback without a
better report at its position is shown too. -/
theorem best_reports_shown_of_repeated :
    let repeated := error .expectedToken ⟨⟨3, 1⟩, 2⟩ "expected `is`"
    let again := warning .nestedComment ⟨⟨3, 1⟩, 2⟩ "expected `is`"
    let better := error .unknownCharacter ⟨⟨1, 2⟩, 1⟩ "unknown character `$`"
    let behind := { error .expectedToken ⟨⟨1, 2⟩, 1⟩ "expected identifier" with fallback := true }
    let alone := { error .expectedToken ⟨⟨4, 1⟩, 0⟩ "expected `;`" with fallback := true }
    let ds := [repeated, behind, alone, again, better]
    repeated ∈ reportable ds ∧ again ∉ reportable ds ∧ behind ∉ reportable ds ∧
      (∃ e ∈ reportable ds, e.position = alone.position ∧ e.message = alone.message) ∧
      ∃ d ∈ reportable ds.reverse, d.position = ⟨3, 1⟩ ∧ d.message = "expected `is`" := by
  intro repeated again better behind alone ds
  obtain ⟨best, same_problems⟩ := best_reports_shown ds
  obtain ⟨e, shown, first⟩ := best.first again (by decide) (by decide)
  obtain rfl : repeated = e := Option.some.inj first
  refine ⟨shown, ?_, ?_, best.fallback alone (by decide) rfl (by decide), ?_⟩
  · rw [mem_reportable]
    decide
  · rw [mem_reportable]
    decide
  · exact (same_problems ds.reverse ds.reverse_perm.symm _ _).mp ⟨repeated, shown, rfl, rfl⟩

end VhdlFrontEnd.Diagnostic
