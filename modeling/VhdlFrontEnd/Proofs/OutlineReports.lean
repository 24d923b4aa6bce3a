import VhdlFrontEnd.Proofs.OutlineReading

/-!
# What the outline reports is about

Every report of the outline is about a token: it covers the token's columns, and it is a fallback
if and only if the token is the end of the file. `parse_reports_about` shows that the reports are
about different tokens and come in the order of these.
-/

namespace VhdlFrontEnd.Outline

/-- The report is about the token. -/
structure About (source : Source) (t : Token) (d : Diagnostic) : Prop where
  span : d.span = tokenSpan source t
  level : d.level = .error
  fallback : d.fallback = (t.kind == .eof)
  message : ∃ words, d.message = "expected " ++ words ∨ d.message = "unexpected " ++ words

/-- The reports are about some of the tokens, in the order of the tokens, at most one about each. -/
inductive AreAbout (source : Source) : List Token → List Diagnostic → Prop where
  | nil : AreAbout source [] []
  | skip {t ts ds} : AreAbout source ts ds → AreAbout source (t :: ts) ds
  | report {t ts d ds} : About source t d → AreAbout source ts ds → AreAbout source (t :: ts) (d :: ds)

variable {source : Source}

/-! ### Reports about tokens -/

namespace AreAbout

variable {front ts : List Token} {ds : List Diagnostic}

theorem none (source : Source) (ts : List Token) : AreAbout source ts [] := by
  induction ts with
  | nil => exact .nil
  | cons t ts ih => exact .skip ih

theorem behind (about : AreAbout source ts ds) (front : List Token) : AreAbout source (front ++ ts) ds := by
  induction front with
  | nil => exact about
  | cons t front ih => exact .skip ih

theorem of_suffix {rest : List Token} (about : AreAbout source rest ds) (suffix : rest <:+ ts) :
    AreAbout source ts ds := by
  obtain ⟨front, rfl⟩ := suffix
  exact about.behind front

theorem exists_token {d : Diagnostic} (about : AreAbout source ts ds) (mem : d ∈ ds) :
    ∃ t ∈ ts, About source t d := by
  induction about with
  | nil => exact absurd mem List.not_mem_nil
  | skip _ ih =>
    obtain ⟨t, here, about⟩ := ih mem
    exact ⟨t, List.mem_cons_of_mem _ here, about⟩
  | report first _ ih =>
    rcases List.mem_cons.mp mem with rfl | mem
    · exact ⟨_, List.mem_cons_self, first⟩
    · obtain ⟨t, here, about⟩ := ih mem
      exact ⟨t, List.mem_cons_of_mem _ here, about⟩

theorem pairwise {R : Token → Token → Prop} {S : Diagnostic → Diagnostic → Prop}
    (about : AreAbout source ts ds) (ordered : ts.Pairwise R)
    (step : ∀ {t u d e}, R t u → About source t d → About source u e → S d e) : ds.Pairwise S := by
  induction about with
  | nil => exact .nil
  | skip _ ih => exact ih (List.pairwise_cons.mp ordered).2
  | report first others ih =>
    obtain ⟨later, ordered⟩ := List.pairwise_cons.mp ordered
    refine List.pairwise_cons.mpr ⟨fun e mem => ?_, ih ordered⟩
    obtain ⟨u, here, about⟩ := others.exists_token mem
    exact step (later u here) first about

/-- Only the last report can be a fallback, and then it is about the end of the file. -/
theorem exists_fallback {eof : Token} (about : AreAbout source (ts ++ [eof]) ds)
    (others : ∀ t ∈ ts, t.kind ≠ .eof) (ends : eof.kind = .eof) :
    ∃ front fallback?, ds = front ++ Option.toList fallback? ∧ (∀ d ∈ front, d.fallback = false) ∧
      ∀ d ∈ fallback?, d.fallback ∧ About source eof d := by
  induction ts generalizing ds with
  | nil =>
    cases about with
    | skip rest =>
      cases rest
      exact ⟨[], Option.none, rfl, List.forall_mem_nil _, nofun⟩
    | @report _ _ d _ first rest =>
      cases rest
      refine ⟨[], some d, rfl, List.forall_mem_nil _, ?_⟩
      rintro _ ⟨⟩
      exact ⟨by rw [first.fallback, ends]; rfl, first⟩
  | cons t ts ih =>
    obtain ⟨inner, others⟩ := List.forall_mem_cons.mp others
    cases about with
    | skip rest => exact ih rest others
    | @report _ _ d _ first rest =>
      obtain ⟨front, fallback?, rfl, clear, last⟩ := ih rest others
      refine ⟨d :: front, fallback?, rfl, List.forall_mem_cons.mpr ⟨?_, clear⟩, last⟩
      rw [first.fallback]
      exact beq_false_of_ne inner

end AreAbout

theorem about_missing (expected : Expected) (t : Token) :
    About source t (missingReport expected t.kind (tokenSpan source t)) := by
  refine ⟨rfl, rfl, rfl, expected.render ++ (", found " ++ t.kind.render), Or.inl ?_⟩
  rw [missingReport, Diagnostic.error, String.append_assoc, String.append_assoc]

theorem about_unexpected {t : Token} (closer : isStrayCloser t.kind) :
    About source t (.error .unexpectedToken (tokenSpan source t) ("unexpected " ++ t.kind.render)) := by
  refine ⟨rfl, rfl, ?_, t.kind.render, Or.inr rfl⟩
  rw [beq_false_of_ne (ne_eof_of_isStrayCloser closer)]
  rfl

/-! ### Readings that meet the end of the file -/

theorem exists_eof_behind {front rest : List Token} (clear : ∀ t ∈ front, t.kind ≠ .eof)
    (ends : ∃ t ∈ front ++ rest, t.kind = .eof) : ∃ t ∈ rest, t.kind = .eof := by
  obtain ⟨t, mem, eof⟩ := ends
  rcases List.mem_append.mp mem with mem | mem
  · exact absurd eof (clear t mem)
  · exact ⟨t, mem, eof⟩

theorem SkipsTo.exists_eof {tokens next : List Token} (skips : SkipsTo tokens next)
    (ends : ∃ t ∈ tokens, t.kind = .eof) : ∃ t ∈ next, t.kind = .eof := by
  obtain ⟨front, rfl, clear, -⟩ := skips.exists_front
  exact exists_eof_behind clear ends

theorem SkipsTo.suffix {tokens next : List Token} (skips : SkipsTo tokens next) : next <:+ tokens := by
  obtain ⟨front, split, -⟩ := skips.exists_front
  exact ⟨front, split.symm⟩

theorem SkipsTo.suffix_tail {t : Token} {rest next : List Token} (skips : SkipsTo (t :: rest) next)
    (other : t.kind ≠ .eof) : next <:+ rest := by
  cases skips with
  | semicolon _ => exact List.suffix_rfl
  | other _ _ skips => exact skips.suffix
  | eof eof => exact absurd eof other

theorem Reads.reports_eof {t : Token} {rest next : List Token} {us : List DesignUnit}
    {ds : List Diagnostic} (eof : t.kind = .eof) (skips : SkipsTo (t :: rest) next)
    (reads : Reads source next us ds) : ds = [] := by
  cases skips with
  | semicolon mark => exact nomatch eof.symm.trans mark
  | other _ other _ => exact absurd eof other
  | eof _ =>
    have same := (ahead_of_reads reads [] nofun).2
    rw [reportsAhead_eof rest eof] at same
    exact List.map_eq_nil_iff.mp same

theorem Reads.areAbout {tokens : List Token} {us : List DesignUnit} {ds : List Diagnostic}
    (reads : Reads source tokens us ds) (ends : ∃ t ∈ tokens, t.kind = .eof) :
    AreAbout source tokens ds := by
  induction reads with
  | nil => exact .nil
  | eof _ => exact .none source _
  | @header head u rest us ds text _ ih => exact (ih (exists_eof_behind text.ne_eof ends)).behind head
  | @malformed first before t rest next d us ds begun other missing skips reads ih =>
    have behind := exists_eof_behind (fun x mem => (ends_nothing_of_begun begun x mem).1) ends
    obtain ⟨expected, -, rfl⟩ := missing
    refine AreAbout.behind (.report (about_missing expected t) ?_) (first :: before)
    by_cases eof : t.kind = .eof
    · rw [Reads.reports_eof eof skips reads]
      exact .none source rest
    · exact (ih (skips.exists_eof behind)).of_suffix (skips.suffix_tail eof)
  | unfinished begun _ =>
    obtain ⟨t, mem, eof⟩ := ends
    exact absurd eof (ends_nothing_of_begun begun t mem).1
  | @unexpected first rest next us ds closer skips _ ih =>
    have eof := ne_eof_of_isStrayCloser closer
    exact .report (about_unexpected closer) ((ih (skips.exists_eof ends)).of_suffix (skips.suffix_tail eof))
  | skipped _ _ _ skips _ ih => exact (ih (skips.exists_eof ends)).of_suffix skips.suffix

/-- The reports of the outline are about tokens, in their order, where the tokens have an end. -/
theorem parse_reports_about (source : Source) {tokens : List Token} (ends : ∃ t ∈ tokens, t.kind = .eof) :
    AreAbout source tokens (parse source tokens).2 :=
  (reads_ahead [] tokens nofun).areAbout ends

end VhdlFrontEnd.Outline
