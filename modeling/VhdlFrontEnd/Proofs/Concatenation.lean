import VhdlFrontEnd.Proofs.Joined
import VhdlFrontEnd.Proofs.Suppression

/-!
# Sources one after the other

The lines of a text behind another are the lines of both (`physicalLines_joined`). If the first text
leaves no comment open and ends with a semicolon, the run over both is made of the two runs, the
second one further down (`run_joined`).
-/

namespace VhdlFrontEnd

open Diagnostic

/-! ### The lines of two texts -/

namespace Text

/-- The second text behind the first, from a line of its own on. -/
def joined (first second : List Char) : List Char :=
  if first.getLast? = some '\n' then first ++ second else first ++ '\n' :: second

theorem splitLines_append (front rest : List Char) :
    splitLines (front ++ '\n' :: rest) = front.splitOn '\n' ++ splitLines rest := by
  have some_piece := List.splitOn_ne_nil '\n' rest
  unfold splitLines
  rw [List.splitOn_append_cons_self]
  dsimp only
  rw [List.getLast?_append_of_ne_nil _ some_piece, List.dropLast_append_of_ne_nil some_piece]
  split <;> rfl

@[simp] theorem splitLines_nil : splitLines [] = [] := rfl

theorem getLast?_splitOn {cs : List Char} (some_char : cs ≠ []) (no_end : cs.getLast? ≠ some '\n') :
    (cs.splitOn '\n').getLast? ≠ some [] := by
  induction cs with
  | nil => exact absurd rfl some_char
  | cons c cs ih =>
    rw [List.splitOn, List.splitOnP_cons_eq_if_modifyHead, ← List.splitOn]
    cases cs with
    | nil =>
      have other : ¬ c = '\n' := by simpa using no_end
      simp [other]
    | cons d cs =>
      have later := ih (List.cons_ne_nil d cs) (by rwa [List.getLast?_cons_cons] at no_end)
      obtain ⟨piece, pieces, cut⟩ := List.exists_cons_of_ne_nil (List.splitOn_ne_nil '\n' (d :: cs))
      rw [cut] at later ⊢
      split
      · rwa [List.getLast?_cons_cons]
      · cases pieces with
        | nil => simp
        | cons => simpa using later

theorem splitLines_of_getLast? {cs : List Char} (some_char : cs ≠ []) (no_end : cs.getLast? ≠ some '\n') :
    splitLines cs = cs.splitOn '\n' :=
  if_neg (getLast?_splitOn some_char no_end)

theorem splitLines_joined {first : List Char} (some_char : first ≠ []) (second : List Char) :
    splitLines (joined first second) = splitLines first ++ splitLines second := by
  unfold joined
  split
  · next ends =>
    obtain ⟨front, rfl⟩ := List.getLast?_eq_some_iff.mp ends
    have alone := splitLines_append front []
    rw [List.append_assoc, List.singleton_append, splitLines_append, alone, splitLines_nil, List.append_nil]
  · next no_end => rw [splitLines_append, splitLines_of_getLast? some_char no_end]

theorem splitLines_ne_nil {cs : List Char} (some_char : cs ≠ []) : splitLines cs ≠ [] := by
  by_cases ends : cs.getLast? = some '\n'
  · obtain ⟨front, rfl⟩ := List.getLast?_eq_some_iff.mp ends
    rw [splitLines_append, splitLines_nil, List.append_nil]
    exact List.splitOn_ne_nil '\n' front
  · rw [splitLines_of_getLast? some_char ends]
    exact List.splitOn_ne_nil '\n' cs

theorem dropMark_joined {first : List Char} (some_char : dropMark first ≠ []) (second : List Char) :
    dropMark (joined first second) = joined (dropMark first) second := by
  by_cases mark : first.head? = some '\ufeff'
  · obtain ⟨rest, rfl⟩ := List.head?_eq_some_iff.mp mark
    obtain ⟨c, rest, rfl⟩ := List.exists_cons_of_ne_nil some_char
    rw [dropMark, joined, joined, List.getLast?_cons_cons]
    split <;> rfl
  · have head : (joined first second).head? = first.head? := by
      rw [dropMark_of_head? mark] at some_char
      obtain ⟨c, rest, rfl⟩ := List.exists_cons_of_ne_nil some_char
      unfold joined
      split <;> rfl
    rw [dropMark_of_head? mark, dropMark_of_head? (head ▸ mark)]

/-- The lines of the text behind another are the lines of both. -/
theorem physicalLines_joined {first second : List Char} (some_char : dropMark first ≠ [])
    (no_mark : second.head? ≠ some '\ufeff') :
    physicalLines (joined first second) = physicalLines first ++ physicalLines second := by
  rw [physicalLines, physicalLines, physicalLines, dropMark_joined some_char, splitLines_joined some_char,
    List.map_append, dropMark_of_head? no_mark]

theorem physicalLines_ne_nil {cs : List Char} (some_char : cs ≠ []) (no_mark : cs.head? ≠ some '\ufeff') :
    physicalLines cs ≠ [] := by
  rw [physicalLines, dropMark_of_head? no_mark, ne_eq, List.map_eq_nil_iff]
  exact splitLines_ne_nil some_char

end Text

/-! ### Loading -/

namespace Source

theorem overlong?_eq_none_iff {limit : Nat} {texts : List (List Char)} :
    overlong? limit texts = none ↔ ∀ text ∈ texts, text.length ≤ limit := by
  have itself : (texts.zipIdx 1).map Prod.fst = texts := List.zipIdx_map_fst 1 texts
  rw [overlong?, List.findSome?_eq_none_iff, ← itself, List.forall_mem_map, itself]
  refine forall₂_congr fun x _ => ?_
  simp

theorem openAfter_append (open? : Option Position) (rs more : List LineReading) :
    openAfter open? (rs ++ more) = openAfter (openAfter open? rs) more := by
  rw [openAfter, openAfter, openAfter, List.getLast?_append]
  cases more.getLast? <;> rfl

/-- Lines that leave no comment open do not change how the lines behind them are read. -/
theorem readLines_behind {w : Nat} {texts : List (List Char)} (more : List (List Char))
    (closed : openAfter none (readLines w 1 none texts) = none) :
    readLines w 1 none (texts ++ more) =
      readLines w 1 none texts ++ (readLines w 1 none more).map (·.below texts.length) := by
  rw [readLines_append, closed]
  exact congrArg _ (readLines_below w 1 texts.length none more)

theorem lines_ofLines_append {w : Nat} {texts : List (List Char)} (more : List (List Char))
    (closed : openAfter none (readLines w 1 none texts) = none) :
    (ofLines w (texts ++ more)).source.lines.toList =
      (ofLines w texts).source.lines.toList ++ (ofLines w more).source.lines.toList := by
  simp only [ofLines, Arena.toList_ofList, readLines_behind more closed, List.map_append, List.map_map]
  rfl

theorem reports_ofLines_append {w : Nat} {texts : List (List Char)} (more : List (List Char))
    (closed : openAfter none (readLines w 1 none texts) = none) :
    (ofLines w (texts ++ more)).reports =
      (ofLines w texts).reports ++ (ofLines w more).reports.map (·.below texts.length) := by
  have open_after : openAfter none (readLines w 1 none (texts ++ more)) =
      (openAfter none (readLines w 1 none more)).map (·.below texts.length) := by
    rw [readLines_behind more closed, openAfter_append, closed, openAfter_below]
  have unterminated : ((openAfter none (readLines w 1 none (texts ++ more))).map unterminatedError).toList =
      ((openAfter none (readLines w 1 none more)).map unterminatedError).toList.map (·.below texts.length) := by
    rw [open_after]
    cases openAfter none (readLines w 1 none more) <;> rfl
  unfold ofLines
  dsimp only
  rw [unterminated, closed, readLines_behind more closed, List.flatMap_append, List.flatMap_map,
    List.map_append, List.map_flatMap, Option.map_none, Option.toList_none, List.append_nil,
    List.append_assoc]
  rfl

variable {settings : SourceSettings} {first second code : List Char} {a b : Loaded}

theorem sameTick_of_endWhole {s : Source} (whole : Outline.EndWhole (s.scan.filterMap (·.token?))) :
    SameTick (kindAfter none s.codeLines) none := by
  have last : kindAfter none s.codeLines = (s.scan.filterMap (·.token?)).getLast?.map (·.kind) := by
    rw [kindAfter_eq s.scanTabWidth, foldl_previousAfter, ← List.getLast?_map, map_kind_scan, Option.or_none]
    rfl
  rw [last]
  cases found : (s.scan.filterMap (·.token?)).getLast? with
  | none => rfl
  | some t =>
    rw [SameTick, Option.map_some, whole t found]
    rfl

theorem lineCount_pos_of_text (load : ofText settings code = .ok a) (some_text : code ≠ [])
    (no_mark : code.head? ≠ some '\ufeff') : 0 < a.source.lineCount := by
  obtain ⟨-, rfl⟩ := ofText_eq_ok.mp load
  rw [lineCount_ofLines]
  exact List.length_pos_iff.mpr (Text.physicalLines_ne_nil some_text no_mark)

theorem dropMark_ne_nil (load : ofText settings code = .ok a) (nonempty : 0 < a.source.lineCount) :
    Text.dropMark code ≠ [] := by
  intro nothing
  obtain ⟨-, rfl⟩ := ofText_eq_ok.mp load
  rw [lineCount_ofLines, Text.physicalLines, nothing] at nonempty
  exact Nat.lt_irrefl 0 nonempty

/-- A text with the lines of two others, of which the first ends whole, loads as both of them. -/
theorem ofText_joins (loadA : ofText settings first = .ok a) (loadB : ofText settings second = .ok b)
    (nonempty : 0 < b.source.lineCount)
    (closed : openAfter none (readLines settings.tabWidth 1 none (Text.physicalLines first)) = none)
    (whole : Outline.EndWhole (a.source.scan.filterMap (·.token?)))
    (lines : Text.physicalLines code = Text.physicalLines first ++ Text.physicalLines second) :
    ∃ c, ofText settings code = .ok c ∧ Joins a.source b.source c.source ∧
      c.reports = a.reports ++ b.reports.map (·.below a.source.lineCount) := by
  obtain ⟨shortA, rfl⟩ := ofText_eq_ok.mp loadA
  obtain ⟨shortB, rfl⟩ := ofText_eq_ok.mp loadB
  have short : overlong? settings.maxLineLength (Text.physicalLines code) = none := by
    rw [overlong?_eq_none_iff] at shortA shortB ⊢
    rw [lines]
    exact List.forall_mem_append.mpr ⟨shortA, shortB⟩
  refine ⟨_, ofText_eq_ok.mpr ⟨short, rfl⟩, ⟨?_, rfl, rfl, sameTick_of_endWhole whole, nonempty⟩, ?_⟩
  · rw [lines]
    exact lines_ofLines_append _ closed
  · rw [lines, lineCount_ofLines]
    exact reports_ofLines_append _ closed

end Source

/-! ### What is shown -/

theorem Position.below_eq_iff {n : Nat} {p q : Position} (here : n ≤ q.line) :
    p.below n = q ↔ p = ⟨q.line - n, q.column⟩ := by
  obtain ⟨line, column⟩ := p
  obtain ⟨line', column'⟩ := q
  simp only [below, mk.injEq] at here ⊢
  omega

namespace Diagnostic

variable {n : Nat} {ds shown : List Diagnostic}

theorem noLater_below (n : Nat) (d e : Diagnostic) : noLater (d.below n) (e.below n) ↔ noLater d e := by
  rw [noLater, noLater, Position.le_iff, Position.le_iff]
  exact or_congr Nat.add_lt_add_iff_right (and_congr Nat.add_right_cancel_iff Iff.rfl)

theorem position_below (n : Nat) (d : Diagnostic) : (d.below n).position = d.position.below n := rfl

theorem filter_below (n : Nat) (p : Position) (ds : List Diagnostic) :
    (ds.map (·.below n)).filter (·.position == p) =
      if n ≤ p.line then (ds.filter (·.position == ⟨p.line - n, p.column⟩)).map (·.below n) else [] := by
  split
  · next here =>
    rw [List.filter_map]
    refine congrArg _ (List.filter_congr fun d _ => ?_)
    rw [Function.comp_apply, position_below, Bool.eq_iff_iff, beq_iff_eq, beq_iff_eq,
      Position.below_eq_iff here]
  · next above =>
    rw [List.filter_eq_nil_iff, List.forall_mem_map]
    intro d _ at_p
    rw [position_below, beq_iff_eq] at at_p
    have line := congrArg Position.line at_p
    exact above (line ▸ Nat.le_add_left n d.position.line)

theorem StablySorted.below (n : Nat) (h : StablySorted ds shown) :
    StablySorted (ds.map (·.below n)) (shown.map (·.below n)) := by
  refine ⟨h.perm.map _, ?_, fun p => ?_⟩
  · refine List.pairwise_map.mpr (h.sorted.imp fun {d e} ordered => ?_)
    exact (noLater_below n d e).mpr ordered
  · rw [filter_below, filter_below, h.stable]

/-- Reports above all others are in one order with them, phase by phase or not. -/
theorem agreeByPosition_of_lines {xs xs' xs'' ys ys' ys'' : List Diagnostic}
    (above : ∀ d ∈ xs ++ xs' ++ xs'', d.position.line ≤ n)
    (below : ∀ d ∈ ys ++ ys' ++ ys'', n < d.position.line) :
    AgreeByPosition (xs ++ xs' ++ xs'' ++ (ys ++ ys' ++ ys''))
      (xs ++ ys ++ (xs' ++ ys') ++ (xs'' ++ ys'')) := by
  intro p
  have nothing {ds : List Diagnostic} (off : ∀ d ∈ ds, d.position.line ≠ p.line) :
      ds.filter (·.position == p) = [] :=
    List.filter_eq_nil_iff.mpr fun d mem at_p => off d mem (congrArg Position.line (beq_iff_eq.mp at_p))
  by_cases here : p.line ≤ n
  · have no_ys := nothing fun d mem => Nat.ne_of_gt (Nat.lt_of_le_of_lt here (below d mem))
    simp only [List.filter_append, List.append_eq_nil_iff] at no_ys ⊢
    simp [no_ys]
  · have no_xs := nothing fun d mem => Nat.ne_of_lt (Nat.lt_of_le_of_lt (above d mem) (Nat.lt_of_not_le here))
    simp only [List.filter_append, List.append_eq_nil_iff] at no_xs ⊢
    simp [no_xs]

end Diagnostic

namespace Source

theorem reportable_joined {settings : SourceSettings} {first second code : List Char} {a b c : Loaded}
    (tab : 1 ≤ settings.tabWidth) (loadA : ofText settings first = .ok a)
    (loadB : ofText settings second = .ok b) (loadC : ofText settings code = .ok c)
    (nonemptyA : 0 < a.source.lineCount) (joins : Joins a.source b.source c.source)
    (whole : Outline.EndWhole (a.source.scan.filterMap (·.token?)))
    (reports : c.reports = a.reports ++ b.reports.map (·.below a.source.lineCount)) :
    Diagnostic.reportable c.allReports = Diagnostic.reportable a.allReports ++
      (Diagnostic.reportable b.allReports).map (·.below a.source.lineCount) := by
  have shownA := stablySorted_allReports loadA tab nonemptyA
  have shownB := stablySorted_allReports loadB tab joins.nonempty
  have linesA := fun d (mem : d ∈ a.allReports) => (line_of_ofText loadA tab nonemptyA mem).2
  have linesB : ∀ d ∈ b.allReports.map (·.below a.source.lineCount),
      a.source.lineCount < d.position.line := by
    intro d mem
    obtain ⟨e, inB, rfl⟩ := List.mem_map.mp mem
    exact Nat.lt_add_of_pos_left (line_of_ofText loadB tab joins.nonempty inB).1
  have both := shownA.append (shownB.below a.source.lineCount) fun d hd e he =>
    Position.le_iff.mpr (Or.inl (Nat.lt_of_le_of_lt (linesA d hd) (linesB e he)))
  -- Phase by phase the reports of both parts take turns, but no line has reports of both.
  refine (stablySorted_allReports loadC tab joins.lineCount_pos).unique (both.of_agree ?_)
  simp only [Loaded.allReports, List.map_append] at linesA linesB ⊢
  rw [reports, joins.lexicalReports, joins.outlineReports whole]
  exact agreeByPosition_of_lines linesA linesB

end Source

/-! ### Runs -/

theorem Analysis.exists_loaded {settings : SourceSettings} {code : List Char} {run : Analysis}
    (runs : Analysis.ofText settings code = .ok run) :
    ∃ loaded, Source.ofText settings code = .ok loaded ∧ 0 < loaded.source.lineCount := by
  cases load : Source.ofText settings code with
  | error fault =>
    rw [Analysis.ofText, load] at runs
    cases runs
  | ok loaded =>
    refine ⟨loaded, rfl, Nat.pos_of_ne_zero fun empty => ?_⟩
    rw [Analysis.ofText, load, Lexed.ofLoad, Lexed.ofLoaded, Source.tokenize_of_no_line empty] at runs
    cases runs

theorem Source.tokens_of_allTokens (s : Source) :
    s.allTokens.filter (·.kind ≠ .eof) = s.scan.filterMap (·.token?) := by
  have inner : (s.scan.filterMap (·.token?)).filter (·.kind ≠ .eof) = s.scan.filterMap (·.token?) := by
    rw [List.filter_eq_self]
    exact fun t mem => decide_eq_true (placed_of_scan mem).1
  rw [allTokens, List.filter_append, inner]
  exact List.append_nil _

/-- The run over both sources is the first run with the second behind it, as many lines further down
as the first source has. -/
structure Analysis.Follows (first second both : Analysis) : Prop where
  lines : both.source.lines.toList = first.source.lines.toList ++ second.source.lines.toList
  tokens : both.tokens =
    first.tokens.filter (·.kind ≠ .eof) ++ second.tokens.map (·.below first.source.lineCount)
  units : both.outline.units = first.outline.units ++
    second.outline.units.map (Outline.movedUnit (·.below first.source.lineCount))
  tokenCount : both.outline.tokenCount = first.outline.tokenCount + second.outline.tokenCount
  shown : reportable both.reports =
    reportable first.reports ++ (reportable second.reports).map (·.below first.source.lineCount)

/-- A run over the lines of two texts is made of the runs over both, if no comment is open after the
first text and its last token is a semicolon. -/
theorem run_joined {settings : SourceSettings} {first second : List Char} {runA : Analysis} {b : Loaded}
    (tab : 1 ≤ settings.tabWidth) (runs : Analysis.ofText settings first = .ok runA)
    (load : Source.ofText settings second = .ok b) (some_text : second ≠ [])
    (no_mark : second.head? ≠ some '\ufeff')
    (closed : Source.openAfter none
      (Source.readLines settings.tabWidth 1 none (Text.physicalLines first)) = none)
    (ends : (runA.tokens.filter (·.kind ≠ .eof)).getLast?.map (·.kind) = some (.symbol .semicolon)) :
    ∃ runB, Analysis.ofText settings second = .ok runB ∧
      Text.physicalLines (Text.joined first second) =
        Text.physicalLines first ++ Text.physicalLines second ∧
      ∀ code, Text.physicalLines code = Text.physicalLines first ++ Text.physicalLines second →
        ∃ run, Analysis.ofText settings code = .ok run ∧ runA.Follows runB run := by
  obtain ⟨a, loadA, nonemptyA⟩ := Analysis.exists_loaded runs
  obtain rfl := Except.ok.inj ((Analysis.ofText_run loadA nonemptyA).symm.trans runs)
  have nonemptyB := Source.lineCount_pos_of_text load some_text no_mark
  have some_char := Source.dropMark_ne_nil loadA nonemptyA
  have whole : Outline.EndWhole (a.source.scan.filterMap (·.token?)) := by
    intro t last
    rw [Source.tokens_of_allTokens, Option.mem_def.mp last] at ends
    exact Option.some.inj ends
  refine ⟨_, Analysis.ofText_run load nonemptyB, Text.physicalLines_joined some_char no_mark, ?_⟩
  intro code lines
  obtain ⟨c, loadC, joins, reports⟩ := Source.ofText_joins loadA load nonemptyB closed whole lines
  refine ⟨_, Analysis.ofText_run loadC joins.lineCount_pos, joins.lines, ?_, joins.units whole, ?_,
    Source.reportable_joined tab loadA load loadC nonemptyA joins whole reports⟩
  · rw [Source.tokens_of_allTokens]
    exact joins.allTokens
  · exact joins.tokenCount

/-- The apostrophe behind the semicolon starts a character literal in both runs. -/
theorem run_joined_at_apostrophe :
    ∃ runA runB run, Analysis.ofText {} "use;".toList = .ok runA ∧
      Analysis.ofText {} "'a'\nuse".toList = .ok runB ∧
      Analysis.ofText {} "use;\n'a'\nuse".toList = .ok run ∧ runA.Follows runB run := by
  have loadA : Source.ofText {} "use;".toList = .ok ⟨⟨.ofList [⟨.code, "use;".toList⟩], 1⟩, []⟩ := by
    decide +kernel
  have loadB : Source.ofText {} "'a'\nuse".toList =
      .ok ⟨⟨.ofList [⟨.code, "'a'".toList⟩, ⟨.code, "use".toList⟩], 1⟩, []⟩ := by
    decide +kernel
  have runsA := Analysis.ofText_run loadA (by decide)
  obtain ⟨runB, runsB, -, behind⟩ := run_joined (by decide) runsA loadB (by decide) (by decide)
    (by decide +kernel) (by decide +kernel)
  obtain ⟨run, runs, follows⟩ := behind "use;\n'a'\nuse".toList (by decide +kernel)
  exact ⟨_, runB, run, runsA, runsB, runs, follows⟩

end VhdlFrontEnd
