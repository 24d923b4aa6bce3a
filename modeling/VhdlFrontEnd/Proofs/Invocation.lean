import Mathlib.Algebra.GroupWithZero.Nat
import VhdlFrontEnd.Command.Run
import VhdlFrontEnd.Proofs.Concatenation
import VhdlFrontEnd.Proofs.DistinctPaths
import VhdlFrontEnd.Proofs.ReportPlaces

/-!
# Many inputs and one status

Every input of a run is treated, whatever becomes of the others, and the status tells whether all
inputs that were looked at are clean (`status_of_inputs`). Where tokens are printed, paths that are
the same are one input, which is read under the last of them.
-/

namespace VhdlFrontEnd

open Diagnostic

/-! ### Files -/

/-- The file at the path holds a source with some line. -/
def Source.LoadsAs (settings : SourceSettings) (disk : Disk) (path : String) (loaded : Loaded) : Prop :=
  (∃ bytes, disk.read path = .ok bytes ∧ Source.ofText settings (Text.decode bytes) = .ok loaded) ∧
    0 < loaded.source.lineCount

/-- What was found before any outline was made. -/
def Loaded.earlyReports (loaded : Loaded) : List Diagnostic := loaded.reports ++ loaded.source.lexicalReports

theorem Source.LoadsAs.unique {settings : SourceSettings} {disk : Disk} {path : String} {loaded other : Loaded}
    (first : Source.LoadsAs settings disk path loaded) (second : Source.LoadsAs settings disk path other) :
    loaded = other := by
  obtain ⟨⟨bytes, read, load⟩, -⟩ := first
  obtain ⟨⟨bytes', read', load'⟩, -⟩ := second
  obtain rfl := Except.ok.inj (read.symm.trans read')
  exact Except.ok.inj (load.symm.trans load')

section Files

variable {settings : SourceSettings} {disk : Disk} {path : String} {loaded : Loaded}

theorem Lexed.ofFile_of_loadsAs (loads : Source.LoadsAs settings disk path loaded) :
    Lexed.ofFile settings disk path =
      .ok ⟨loaded.source, loaded.source.allTokens, loaded.earlyReports⟩ := by
  obtain ⟨⟨bytes, read, load⟩, nonempty⟩ := loads
  rw [ofFile, Source.ofFile, read]
  dsimp only
  rw [Source.ofBytes, load, ofLoad, ofLoaded, Source.tokenize_eq nonempty]
  rfl

theorem Analysis.ofFile_of_loadsAs (loads : Source.LoadsAs settings disk path loaded) :
    Analysis.ofFile settings disk path = .ok (.ofLexed ⟨loaded.source, loaded.source.allTokens,
      loaded.earlyReports⟩) := by
  rw [ofFile, Lexed.ofFile_of_loadsAs loads]
  rfl

theorem Lexed.ofFile_of_no_source (no_source : ∀ loaded, ¬ Source.LoadsAs settings disk path loaded) :
    ∃ fault, Lexed.ofFile settings disk path = .error fault := by
  rw [ofFile, Source.ofFile]
  cases read : disk.read path with
  | error cause => exact ⟨_, rfl⟩
  | ok bytes =>
    dsimp only
    rw [Source.ofBytes]
    cases load : Source.ofText settings (Text.decode bytes) with
    | error fault => exact ⟨_, rfl⟩
    | ok loaded =>
      have empty : loaded.source.lineCount = 0 :=
        Nat.eq_zero_of_not_pos fun nonempty => no_source loaded ⟨⟨bytes, read, load⟩, nonempty⟩
      exact ⟨.tokenize {}, by rw [ofLoad, ofLoaded, Source.tokenize_of_no_line empty]⟩

theorem earlyReports_sublist (loaded : Loaded) : loaded.earlyReports.Sublist loaded.allReports :=
  List.sublist_append_left _ _

/-- Reports of the first phases, and of all of them, are shown without exception. -/
theorem reportable_perm (loads : Source.LoadsAs settings disk path loaded) (tab : 1 ≤ settings.tabWidth)
    {ds : List Diagnostic} (some_phases : ds.Sublist loaded.allReports) : (reportable ds).Perm ds := by
  obtain ⟨⟨bytes, -, load⟩, nonempty⟩ := loads
  have distinct := (Source.distinct_allReports load tab nonempty).sublist some_phases
  have none_outranked : NoneOutranked ds := by
    intro d hd fallback e he
    exact Source.noneOutranked_allReports load tab nonempty d (some_phases.subset hd) fallback e
      (some_phases.subset he)
  exact (reportable_stablySorted distinct none_outranked).perm

theorem render_of_loadsAs (loads : Source.LoadsAs settings disk path loaded) (tab : 1 ≤ settings.tabWidth)
    (style : Renderer) (file : String) {d : Diagnostic} (mem : d ∈ loaded.allReports) :
    ∃ text, style.render file loaded.source.texts d = .ok text := by
  obtain ⟨⟨bytes, -, load⟩, nonempty⟩ := loads
  obtain ⟨first, last⟩ := Source.line_of_ofText load tab nonempty mem
  have last : d.position.line ≤ loaded.source.texts.size := by
    rw [Source.texts, Array.size_map]
    exact last
  have rendered := style.render_isOk file loaded.source.texts d first last
  cases result : style.render file loaded.source.texts d with
  | ok text => exact ⟨text, rfl⟩
  | error fault => rw [result] at rendered; exact absurd rendered Bool.false_ne_true

end Files

namespace Command

/-! ### One input -/

theorem rendered_of_ok {style : Renderer} {file : String} {lines : Array (List Char)} {ds : List Diagnostic}
    (sound : ∀ d ∈ ds, ∃ text, style.render file lines d = .ok text) :
    ∃ texts, rendered style file lines ds = (texts, none) := by
  induction ds with
  | nil => exact ⟨[], rfl⟩
  | cons d ds ih =>
    obtain ⟨text, first⟩ := sound d List.mem_cons_self
    obtain ⟨texts, others⟩ := ih fun e mem => sound e (List.mem_cons_of_mem d mem)
    exact ⟨text :: texts, by rw [rendered, first]; dsimp only; rw [others]⟩

/-- The input was read, its reports could be shown, and these are its errors. -/
structure Processed.Shows (q : Processed) (found : List Diagnostic) : Prop where
  fault : q.fault? = none
  readable : q.readable
  errors : q.errors = errorCount found

variable {settings : SourceSettings} {disk : Disk} {path : String} {loaded : Loaded}

theorem processedSource_shows (loads : Source.LoadsAs settings disk path loaded) (tab : 1 ≤ settings.tabWidth)
    {ds : List Diagnostic} (some_phases : ds.Sublist loaded.allReports) (style : Renderer) (file : String)
    (tokens : List Token) (result : List Output) :
    (processedSource style file ⟨loaded.source, tokens, ds⟩ result).Shows ds := by
  have all_shown := reportable_perm loads tab some_phases
  have sound : ∀ d ∈ reportable ds, ∃ text, style.render file loaded.source.texts d = .ok text :=
    fun d mem => render_of_loadsAs loads tab style file (some_phases.subset (all_shown.subset mem))
  obtain ⟨texts, shown⟩ := rendered_of_ok sound
  rw [processedSource]
  dsimp only
  rw [shown]
  exact ⟨rfl, rfl, all_shown.countP_eq _⟩

namespace Plan

variable (p : Plan)

/-- The inputs as a run looks at them: the path that an input is named by, and the path that is read. -/
def inputs : List (String × String) :=
  if p.options.emit? = some .tokens then
    (Path.distinct p.options.sources).map fun path => (path, Path.lastSame p.options.sources path)
  else p.options.sources.map fun path => (path, path)

/-- What becomes of one input. -/
def attempt (disk : Disk) (input : String × String) : Processed :=
  if p.options.emit? = some .tokens then
    p.processTokens (input.1, Lexed.ofFile p.session.settings disk input.2)
  else p.processOutline disk input.2

/-- What a run writes before it treats its inputs: log lines. -/
def opening (host : Host) : List Output :=
  p.logging.lines [⟨.debug, .commandLine, "starting",
    [("files", toString p.options.sources.length), ("jobs", toString p.session.jobs)]⟩] ++ (p.process host).1

/-- What the phases of a run find in a source, before anything is hidden. -/
def found (loaded : Loaded) : List Diagnostic :=
  if p.options.emit? = some .tokens then loaded.earlyReports else loaded.allReports

/-- The file could be read, it has some line and none that is too long, and no phase found an error. -/
def Clean (disk : Disk) (path : String) : Prop :=
  ∃ bytes, disk.read path = .ok bytes ∧ Text.physicalLines (Text.decode bytes) ≠ [] ∧
    (∀ line ∈ Text.physicalLines (Text.decode bytes), line.length ≤ p.session.settings.maxLineLength) ∧
    ∀ d ∈ p.found (Source.ofLines p.session.settings.tabWidth (Text.physicalLines (Text.decode bytes))),
      ¬ d.level.isError

variable {p}

theorem clean_iff : p.Clean disk path ↔ ∃ loaded, Source.LoadsAs p.session.settings disk path loaded ∧
    errorCount (p.found loaded) = 0 := by
  have counted (ds : List Diagnostic) : errorCount ds = 0 ↔ ∀ d ∈ ds, ¬ d.level.isError := List.countP_eq_zero
  constructor
  · rintro ⟨bytes, read, some_line, short, no_error⟩
    refine ⟨_, ⟨⟨bytes, read, Source.ofText_eq_ok.mpr ⟨Source.overlong?_eq_none_iff.mpr short, rfl⟩⟩, ?_⟩,
      (counted _).mpr no_error⟩
    rw [Source.lineCount_ofLines]
    exact List.length_pos_iff.mpr some_line
  · rintro ⟨loaded, ⟨⟨bytes, read, load⟩, nonempty⟩, no_error⟩
    obtain ⟨short, rfl⟩ := Source.ofText_eq_ok.mp load
    rw [Source.lineCount_ofLines] at nonempty
    exact ⟨bytes, read, List.length_pos_iff.mp nonempty, Source.overlong?_eq_none_iff.mp short,
      (counted _).mp no_error⟩

theorem attempt_shows (tab : 1 ≤ p.session.settings.tabWidth) (input : String × String)
    (loads : Source.LoadsAs p.session.settings disk input.2 loaded) :
    (p.attempt disk input).Shows (p.found loaded) := by
  unfold attempt found
  split
  · rw [Lexed.ofFile_of_loadsAs loads]
    exact processedSource_shows loads tab (earlyReports_sublist loaded) _ _ _ _
  · obtain ⟨fault, readable, errors⟩ := processedSource_shows loads tab (List.Sublist.refl loaded.allReports)
      p.style input.2 loaded.source.allTokens (if p.options.wantsOutline then
        [.result (title p.several input.2 ++
          (Outline.parse loaded.source loaded.source.allTokens).1.render ++ "\n")] else [])
    rw [processOutline, Analysis.ofFile_of_loadsAs loads]
    exact ⟨fault, readable, errors⟩

theorem attempt_of_no_source {input : String × String}
    (no_source : ∀ loaded, ¬ Source.LoadsAs p.session.settings disk input.2 loaded) :
    (p.attempt disk input).fault? = none ∧ (p.attempt disk input).readable = false := by
  obtain ⟨fault, failed⟩ := Lexed.ofFile_of_no_source no_source
  unfold attempt
  split
  · rw [failed]
    exact ⟨rfl, rfl⟩
  · rw [processOutline, Analysis.ofFile, failed]
    exact ⟨rfl, rfl⟩

/-- Whatever becomes of an input, no report of it fails to be shown, and the run counts it as clean
exactly if it is. -/
theorem attempt_spec (tab : 1 ≤ p.session.settings.tabWidth) (disk : Disk) (input : String × String) :
    (p.attempt disk input).fault? = none ∧
      ((p.attempt disk input).errors = 0 ∧ (p.attempt disk input).readable ↔ p.Clean disk input.2) := by
  rw [clean_iff]
  by_cases some_source : ∃ loaded, Source.LoadsAs p.session.settings disk input.2 loaded
  · obtain ⟨loaded, loads⟩ := some_source
    have shows := attempt_shows tab input loads
    refine ⟨shows.fault, ?_⟩
    rw [shows.errors, and_iff_left shows.readable]
    refine ⟨fun no_error => ⟨loaded, loads, no_error⟩, ?_⟩
    rintro ⟨other, loads', no_error⟩
    rwa [loads.unique loads']
  · obtain ⟨fault, unreadable⟩ := attempt_of_no_source (p := p) (not_exists.mp some_source)
    refine ⟨fault, ?_⟩
    rw [unreadable]
    exact ⟨fun h => absurd h.2 Bool.false_ne_true, fun ⟨loaded, loads, _⟩ => absurd ⟨loaded, loads⟩ some_source⟩

/-! ### All inputs -/

theorem untilFault_eq {qs : List Processed} (no_fault : ∀ q ∈ qs, q.fault? = none) : untilFault qs = qs := by
  induction qs with
  | nil => rfl
  | cons q qs ih =>
    have first : q.fault?.isSome = false := by rw [no_fault q List.mem_cons_self]; rfl
    rw [untilFault, first, ih fun q mem => no_fault q (List.mem_cons_of_mem _ mem)]
    rfl

/-- Every input is treated, in order, as if it were alone. -/
theorem process_eq (tab : 1 ≤ p.session.settings.tabWidth) (host : Host) :
    (p.process host).2 = p.inputs.map (p.attempt host.disk) := by
  have no_fault : ∀ q ∈ p.inputs.map (p.attempt host.disk), q.fault? = none := by
    rw [List.forall_mem_map]
    exact fun input _ => (attempt_spec tab host.disk input).1
  rw [← untilFault_eq no_fault, process]
  unfold inputs attempt
  split
  · next tokens =>
    rw [Session.lexMany, PathMap.entries_ofList, List.map_map, List.map_map]
    rfl
  · rw [List.map_map]
    rfl

theorem foldl_add (f : Processed → Nat) (qs : List Processed) :
    qs.foldl (fun n q => n + f q) 0 = (qs.map f).sum := by
  rw [List.sum_eq_foldl_nat, List.foldl_map]

/-- A run over inputs ends after the last of them, with what all of them give. -/
theorem execute_eq (tab : 1 ≤ p.session.settings.tabWidth) {host : Host} {qs : List Processed}
    (all : p.inputs.map (p.attempt host.disk) = qs) :
    p.execute host = ⟨p.opening host ++ qs.flatMap (·.output) ++
        summary (qs.map (·.errors)).sum (qs.map (·.warnings)).sum,
      if (qs.map (·.errors)).sum = 0 ∧ qs.all (·.readable) then 0 else 1⟩ := by
  have no_fault : (qs.findSome? fun q => q.fault?.map (q.path, ·)) = none := by
    rw [List.findSome?_eq_none_iff, ← all, List.forall_mem_map]
    intro input _
    rw [(attempt_spec tab host.disk input).1]
    rfl
  have treated := (process_eq tab host).trans all
  rw [execute, opening]
  cases process : p.process host with
  | mk before processed =>
    obtain rfl : processed = qs := by rw [← treated, process]
    dsimp only
    rw [no_fault, foldl_add (·.errors), foldl_add (·.warnings)]

theorem status_execute (tab : 1 ≤ p.session.settings.tabWidth) (host : Host) :
    (p.execute host).status ≤ 1 ∧
      ((p.execute host).status = 0 ↔ ∀ input ∈ p.inputs, p.Clean host.disk input.2) := by
  have all_clean : (((p.inputs.map (p.attempt host.disk)).map (·.errors)).sum = 0 ∧
      (p.inputs.map (p.attempt host.disk)).all (·.readable)) ↔
        ∀ input ∈ p.inputs, p.Clean host.disk input.2 := by
    rw [List.sum_eq_zero_iff_forall_eq_nat, List.all_eq_true, List.forall_mem_map, List.forall_mem_map,
      List.forall_mem_map, ← forall₂_and]
    exact forall₂_congr fun input _ => (attempt_spec tab host.disk input).2
  rw [execute_eq tab rfl, ← all_clean]
  dsimp only
  split
  · next clean => exact ⟨Nat.zero_le 1, iff_of_true rfl clean⟩
  · next unclean => exact ⟨Nat.le_refl 1, iff_of_false Nat.one_ne_zero unclean⟩

variable (p)

/-- Tokens are printed, and two of the paths are the same although other things are read at them. -/
def Mixes (disk : Disk) : Prop :=
  p.options.emit? = some .tokens ∧ ∃ a ∈ p.options.sources, ∃ b ∈ p.options.sources,
    Path.same a b ∧ disk.read a ≠ disk.read b

variable {p}

/-- All inputs that are looked at are clean if all paths are, and only then unless paths are mixed. -/
theorem clean_inputs_iff (no_mix : ¬ p.Mixes disk) : (∀ input ∈ p.inputs, p.Clean disk input.2) ↔
    ∀ path ∈ p.options.sources, p.Clean disk path := by
  unfold inputs
  split
  · next tokens =>
    rw [List.forall_mem_map]
    constructor
    · -- What is read for a path is the last of those that are the same.
      intro clean path mem
      obtain ⟨known, inside, like⟩ := Path.exists_distinct mem
      obtain ⟨last_mem, last_like⟩ := Path.lastSame_spec (Path.mem_of_mem_distinct inside)
      have same_file : disk.read path = disk.read (Path.lastSame p.options.sources known) := by
        by_contra other
        exact no_mix ⟨tokens, path, mem, _, last_mem, Path.same_trans like last_like, other⟩
      have last_clean := clean known inside
      rwa [Clean, ← same_file] at last_clean
    · intro clean known inside
      exact clean _ (Path.lastSame_spec (Path.mem_of_mem_distinct inside)).1
  · rw [List.forall_mem_map]

end Plan

theorem run_eq_execute {host : Host} {arguments : List String} {o : Options} {settings : Settings}
    (read : Options.read host.environment arguments = .ok o) (configured : settingsOf host o = .ok settings)
    (named : o.sources ≠ []) (files : ∀ path ∈ o.sources, ¬ host.disk.isDirectory path) :
    run host arguments = (planOf host.environment o settings).execute host := by
  have inputs : checkInputs host.disk o.sources = .ok () := by
    rw [checkInputs, if_neg (by rwa [List.isEmpty_iff]), List.find?_eq_none.mpr files]
  rw [run, read]
  dsimp only
  rw [runWith, configured]
  dsimp only
  rw [inputs]

/-- Every input of a run is treated, and all its reports are shown, whatever becomes of the others. The
status is zero exactly if every input that was looked at is clean; so it is zero exactly if all the
paths are, but where tokens are printed, paths that are the same are read at the last of them alone. -/
theorem status_of_inputs {host : Host} {arguments : List String} {o : Options} {settings : Settings} {p : Plan}
    (read : Options.read host.environment arguments = .ok o) (configured : settingsOf host o = .ok settings)
    (plan : planOf host.environment o settings = p) (named : o.sources ≠ [])
    (files : ∀ path ∈ o.sources, ¬ host.disk.isDirectory path) :
    (∃ errors warnings, (run host arguments).output = p.opening host ++
      p.inputs.flatMap (fun input => (p.attempt host.disk input).output) ++ Plan.summary errors warnings) ∧
    (∀ input ∈ p.inputs, (p.attempt host.disk input).fault? = none) ∧
    (run host arguments).status ≤ 1 ∧
    ((run host arguments).status = 0 ↔ ∀ input ∈ p.inputs, p.Clean host.disk input.2) ∧
    (¬ p.Mixes host.disk → ((run host arguments).status = 0 ↔ ∀ path ∈ o.sources, p.Clean host.disk path)) := by
  subst plan
  have tab : 1 ≤ (planOf host.environment o settings).session.settings.tabWidth := Nat.le_max_right _ 1
  obtain ⟨bound, status⟩ := Plan.status_execute tab host
  rw [run_eq_execute read configured named files]
  refine ⟨?_, fun input _ => (Plan.attempt_spec tab host.disk input).1, bound, status, ?_⟩
  · rw [Plan.execute_eq tab rfl, List.flatMap_map]
    exact ⟨_, _, rfl⟩
  · exact fun no_mix => status.trans (Plan.clean_inputs_iff no_mix)

/-- A machine with one file, which holds an empty line. -/
def hostWithOneFile : Host where disk := Tree.disk (.directory [("a.vhd", .file "\n".toUTF8)]) []

/-- An input that is missing does not keep the next from being treated, and the run fails. -/
theorem status_of_missing_input :
    hostWithOneFile.disk.read "b.vhd" = .error .missing ∧
      (run hostWithOneFile ["--emit", "tokens", "b.vhd", "a.vhd"]).status = 1 ∧
      Output.result "==> a.vhd <==\n(1,1) Eof\n" ∈
        (run hostWithOneFile ["--emit", "tokens", "b.vhd", "a.vhd"]).output := by
  have missing : hostWithOneFile.disk.read "b.vhd" = .error .missing := rfl
  have read : Options.read hostWithOneFile.environment ["--emit", "tokens", "b.vhd", "a.vhd"] =
      .ok { inputs := ["b.vhd", "a.vhd"], emit? := some .tokens } := by
    decide +kernel
  have configured : settingsOf hostWithOneFile { inputs := ["b.vhd", "a.vhd"], emit? := some .tokens } =
      .ok (.standard 1) := by
    decide +kernel
  obtain ⟨⟨errors, warnings, output⟩, -, bound, status, -⟩ :=
    status_of_inputs read configured rfl (by decide) (by decide +kernel)
  have unclean : ¬ (run hostWithOneFile ["--emit", "tokens", "b.vhd", "a.vhd"]).status = 0 := by
    rw [status]
    intro clean
    obtain ⟨bytes, read, -⟩ := clean ("b.vhd", "b.vhd") (by decide +kernel)
    exact nomatch missing.symm.trans read
  refine ⟨missing, by omega, ?_⟩
  rw [output]
  refine List.mem_append_left _ (List.mem_append_right _ (List.mem_flatMap.mpr ⟨("a.vhd", "a.vhd"), ?_⟩))
  exact ⟨by decide +kernel, by decide +kernel⟩

/-- A path that cannot be read is not missed where it is the same as another that is read in its place. -/
theorem success_without_reading :
    Options.read hostWithOneFile.environment ["--emit", "tokens", "a.vhd/", "a.vhd"] =
        .ok { inputs := ["a.vhd/", "a.vhd"], emit? := some .tokens } ∧
      hostWithOneFile.disk.read "a.vhd/" = .error .notDirectory ∧
      (∀ path ∈ ["a.vhd/", "a.vhd"], ¬ hostWithOneFile.disk.isDirectory path) ∧
      (run hostWithOneFile ["--emit", "tokens", "a.vhd/", "a.vhd"]).status = 0 :=
  ⟨by decide +kernel, rfl, by decide +kernel, by decide +kernel⟩

end Command

end VhdlFrontEnd
