import VhdlFrontEnd.Proofs.OutlineReading
import VhdlFrontEnd.Proofs.Renaming
import VhdlFrontEnd.Proofs.UpperSource

/-!
# Runs in either case

A run over a text in upper case gives the tokens, the outline and the reports of the run over the
text, but for the case of names and messages. So the runs over two texts that differ in nothing but
the case of letters are the same in everything else (`run_upper`).
-/

namespace VhdlFrontEnd

theorem Text.toUpper_append (a b : String) : (a ++ b).toUpper = a.toUpper ++ b.toUpper := by
  rw [← String.toList_inj]
  simp [String.toUpper, String.toList_map]

theorem Text.toUpper_ofList (cs : List Char) : (String.ofList cs).toUpper = String.ofList (Text.upper cs) := by
  rw [← String.toList_inj]
  simp [String.toUpper, String.toList_map, Text.upper]

/-! ### Reports -/

/-- The report with its message in upper case. -/
def Diagnostic.upper (d : Diagnostic) : Diagnostic := { d with message := d.message.toUpper }

namespace LexicalFault

theorem code_upper (fault : LexicalFault) : fault.upper.code = fault.code := by
  cases fault <;> rfl

theorem helps_upper (fault : LexicalFault) : fault.upper.helps = fault.helps := by
  cases fault <;> rfl

theorem upper_escape (c : Char) : Text.upper (Text.escape c.toUpper) = Text.upper (Text.escape c) := by
  have letters : ∀ n < 26, Text.upper (Text.escape (Char.ofNat (97 + n)).toUpper) =
      Text.upper (Text.escape (Char.ofNat (97 + n))) := by
    decide +kernel
  exact Text.forall_toUpper (f := fun c => Text.upper (Text.escape c)) letters c

theorem toUpper_message (fault : LexicalFault) (text : List Char) :
    (fault.upper.message (Text.upper text)).toUpper = (fault.message text).toUpper := by
  -- Between words of their own, messages hold a character or the text, or neither.
  have around (front back : String) {cs cs' : List Char} (same : Text.upper cs' = Text.upper cs) :
      (front ++ String.ofList cs' ++ back).toUpper = (front ++ String.ofList cs ++ back).toUpper := by
    simp only [Text.toUpper_append, Text.toUpper_ofList, same]
  cases fault with
  | unknownCharacter c | bitStringCharacter c => exact around _ _ (upper_escape c)
  | malformedNumber | baseOutOfRange | invalidIdentifier => exact around _ _ (Text.upper_upper text)
  | _ => exact congrArg String.toUpper rfl

end LexicalFault

/-- A faulty piece in upper case is reported as the piece is, but for the case of the message. -/
theorem Located.report?_upper (l : Located) :
    l.upper.report?.map (·.upper) = l.report?.map (·.upper) := by
  rw [report?, report?, upper, Piece.fault?_upper]
  cases l.piece.fault? with
  | none => rfl
  | some fault =>
    have message := fault.toUpper_message l.piece.text
    simp only [Option.map_some, Diagnostic.upper, Piece.upper, LexicalFault.code_upper,
      LexicalFault.helps_upper]
    exact congrArg (fun m => some { Diagnostic.error fault.code _ m with helps := fault.helps }) message

theorem Source.lexicalReports_upper (s : Source) :
    s.upper.lexicalReports.map (·.upper) = s.lexicalReports.map (·.upper) := by
  rw [lexicalReports, lexicalReports, scan_upper, List.filterMap_map, List.map_filterMap, List.map_filterMap]
  simp only [Function.comp_def, Located.report?_upper]

/-! ### The outline -/

/-- The unit with its names in upper case. -/
def DesignUnit.upper (u : DesignUnit) : DesignUnit :=
  { u with
    name? := u.name?.map String.toUpper, of? := u.of?.map String.toUpper
    names := u.names.map String.toUpper }

namespace Source

variable (s : Source)

theorem moves_upper : Outline.Moves id id Char.toUpper s s.upper :=
  ⟨fun _ => rfl, fun _ => rfl, s.spelling_upper, rfl⟩

theorem endSpan_upper (tokens : List Token) : Outline.endSpan s.upper tokens = Outline.endSpan s tokens := by
  rw [Outline.endSpan, Outline.endSpan]
  cases tokens.find? (·.kind = .eof) with
  | none => rfl
  | some t =>
    dsimp only
    rw [spelling_upper, Text.length_upper]

theorem parse_upper (tokens : List Token) :
    Outline.parse s.upper tokens =
      (⟨(Outline.parse s tokens).1.units.map (·.upper), (Outline.parse s tokens).1.tokenCount⟩,
        (Outline.parse s tokens).2) := by
  have units := s.moves_upper.units (Outline.upToEof tokens)
  have reports := s.moves_upper.reports (Outline.endSpan s tokens) (Outline.upToEof tokens)
  rw [List.map_id] at units reports
  rw [Outline.movedReport_id, List.map_id] at reports
  rw [Outline.parse, endSpan_upper]
  exact Prod.ext (congrArg (fun found => (⟨found, _⟩ : Outline)) units) reports

theorem outlineReports_upper : s.upper.outlineReports = s.outlineReports := by
  rw [outlineReports, outlineReports, allTokens_upper, parse_upper]

end Source

/-! ### Runs -/

theorem Loaded.allReports_upper (loaded : Loaded) :
    loaded.upper.allReports.map (·.upper) = loaded.allReports.map (·.upper) := by
  simp only [allReports, List.map_append, upper, Source.lexicalReports_upper, Source.outlineReports_upper]

namespace Analysis

/-- The second run is the first one in upper case. -/
structure UpperCased (run upperRun : Analysis) : Prop where
  lines : upperRun.source.lines.toList = run.source.lines.toList.map (·.upper)
  tokens : upperRun.tokens = run.tokens
  units : upperRun.outline.units = run.outline.units.map (·.upper)
  tokenCount : upperRun.outline.tokenCount = run.outline.tokenCount
  reports : upperRun.reports.map (·.upper) = run.reports.map (·.upper)

/-- The runs differ in nothing but the case of texts: of lines, names and messages. -/
structure SameUpToCase (run other : Analysis) : Prop where
  lines : other.source.lines.toList.map (·.upper) = run.source.lines.toList.map (·.upper)
  tokens : other.tokens = run.tokens
  units : other.outline.units.map (·.upper) = run.outline.units.map (·.upper)
  tokenCount : other.outline.tokenCount = run.outline.tokenCount
  reports : other.reports.map (·.upper) = run.reports.map (·.upper)

theorem UpperCased.sameUpToCase {run other upperRun : Analysis} (upper : run.UpperCased upperRun)
    (upper' : other.UpperCased upperRun) : run.SameUpToCase other where
  lines := upper'.lines.symm.trans upper.lines
  tokens := upper'.tokens.symm.trans upper.tokens
  units := upper'.units.symm.trans upper.units
  tokenCount := upper'.tokenCount.symm.trans upper.tokenCount
  reports := upper'.reports.symm.trans upper.reports

theorem exists_upperCased {settings : SourceSettings} {code : List Char} {loaded : Loaded}
    (load : Source.ofText settings code = .ok loaded) (nonempty : 0 < loaded.source.lineCount) :
    ∃ run upperRun, ofText settings code = .ok run ∧ ofText settings (Text.upper code) = .ok upperRun ∧
      run.UpperCased upperRun := by
  have upper_load : Source.ofText settings (Text.upper code) = .ok loaded.upper := by
    rw [Source.ofText_upper, load]
    rfl
  have upper_nonempty : 0 < loaded.upper.source.lineCount := by
    rwa [Loaded.upper, Source.lineCount_upper]
  have outline : (Outline.parse loaded.upper.source loaded.upper.source.allTokens).1 =
      ⟨(Outline.parse loaded.source loaded.source.allTokens).1.units.map (·.upper),
        (Outline.parse loaded.source loaded.source.allTokens).1.tokenCount⟩ := by
    rw [Loaded.upper, Source.allTokens_upper, Source.parse_upper]
  exact ⟨_, _, ofText_run load nonempty, ofText_run upper_load upper_nonempty,
    { lines := rfl
      tokens := loaded.source.allTokens_upper
      units := by dsimp only; rw [outline]
      tokenCount := by dsimp only; rw [outline]
      reports := loaded.allReports_upper }⟩

end Analysis

/-- A text and its upper case, and so any two texts that differ in the case of letters only, have runs
that differ in the case of texts only. -/
theorem run_upper {settings : SourceSettings} {code : List Char} {loaded : Loaded}
    (load : Source.ofText settings code = .ok loaded) (nonempty : 0 < loaded.source.lineCount) :
    ∃ run upperRun, Analysis.ofText settings code = .ok run ∧
      Analysis.ofText settings (Text.upper code) = .ok upperRun ∧ run.UpperCased upperRun ∧
      ∀ code', Text.upper code' = Text.upper code →
        ∃ other, Analysis.ofText settings code' = .ok other ∧ run.SameUpToCase other := by
  obtain ⟨run, upperRun, runs, upper_runs, upper⟩ := Analysis.exists_upperCased load nonempty
  refine ⟨run, upperRun, runs, upper_runs, upper, fun code' same => ?_⟩
  -- The other text loads since its upper case does.
  have loads := Source.ofText_upper settings code'
  rw [same, Source.ofText_upper, load] at loads
  cases load' : Source.ofText settings code' with
  | error fault =>
    rw [load'] at loads
    exact nomatch loads
  | ok loaded' =>
    rw [load'] at loads
    have same_source : loaded.source.upper = loaded'.source.upper :=
      congrArg Loaded.source (Except.ok.inj loads)
    have nonempty' : 0 < loaded'.source.lineCount := by
      rwa [← Source.lineCount_upper, ← same_source, Source.lineCount_upper]
    obtain ⟨other, upperOther, runs', upper_runs', upper'⟩ := Analysis.exists_upperCased load' nonempty'
    rw [same] at upper_runs'
    obtain rfl := Except.ok.inj (upper_runs.symm.trans upper_runs')
    exact ⟨other, runs', upper.sameUpToCase upper'⟩

/-- Reserved words and a name in three cases, and literals that are dropped in each of them. -/
theorem run_upper_of_mixed_case :
    ∃ run upperRun other, Analysis.ofText {} "entity e is 16#fg# D\"a\"".toList = .ok run ∧
      Analysis.ofText {} "ENTITY E IS 16#FG# D\"A\"".toList = .ok upperRun ∧
      Analysis.ofText {} "Entity E iS 16#Fg# d\"A\"".toList = .ok other ∧
      run.UpperCased upperRun ∧ run.SameUpToCase other ∧
      run.tokens.map (·.kind) = [.keyword .entity, .identifier, .keyword .is, .eof] := by
  have load : Source.ofText {} "entity e is 16#fg# D\"a\"".toList =
      .ok ⟨⟨.ofList [⟨.code, "entity e is 16#fg# D\"a\"".toList⟩], 1⟩, []⟩ := by
    decide +kernel
  have upper_code : Text.upper "entity e is 16#fg# D\"a\"".toList = "ENTITY E IS 16#FG# D\"A\"".toList := by
    decide +kernel
  obtain ⟨run, upperRun, runs, upper_runs, upper, same⟩ := run_upper load (by decide)
  obtain ⟨other, other_runs, same⟩ := same "Entity E iS 16#Fg# d\"A\"".toList (by decide +kernel)
  rw [upper_code] at upper_runs
  refine ⟨run, upperRun, other, runs, upper_runs, other_runs, upper, same, ?_⟩
  obtain rfl := Except.ok.inj ((Analysis.ofText_run load (by decide)).symm.trans runs)
  decide +kernel

end VhdlFrontEnd
