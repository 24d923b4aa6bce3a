import Mathlib.Data.List.Basic
import VhdlFrontEnd.Proofs.Tokens

/-!
# Every character of code is accounted for

`Tiled` covers a line of code from left to right with gaps, with the tokens of the line, and with
texts that are dropped and reported. `lines_tiled` shows that what the scan of a source gives
covers all its code lines, and touches no other.
-/

namespace VhdlFrontEnd

/-- The codes under which a dropped text is reported. -/
def LexicalFault.droppingCodes : List Code :=
  [.unknownCharacter, .invalidNumber, .invalidIdentifier, .invalidBitString, .invalidLiteral]

theorem LexicalFault.code_mem_droppingCodes {fault : LexicalFault}
    (h : fault ≠ .unterminatedString) : fault.code ∈ droppingCodes := by
  cases fault with
  | unterminatedString => exact absurd rfl h
  | _ => simp [code, droppingCodes]

/-- Past `before`, the rest of line `i` is covered without overlap by gaps, by just these tokens,
and by dropped texts with just these reports, in their order. A report covers the columns of its
text; a string that runs to the end of the line is a token and reported. -/
inductive Tiled (w i : Nat) : (before rest : List Char) → List Token → List Diagnostic → Prop where
  | done {before} : Tiled w i before [] [] []
  | gap {before sort text rest ts ds} : Gap sort text rest →
      Tiled w i (before ++ text) rest ts ds → Tiled w i before (text ++ rest) ts ds
  | token {before text rest t ts ds} : text ≠ [] →
      t.range = ⟨i, Text.byteLength before, Text.byteLength text⟩ →
      Tiled w i (before ++ text) rest ts ds → Tiled w i before (text ++ rest) (t :: ts) ds
  | openString {before text t ts d ds} : text ≠ [] → t.kind = .string →
      t.range = ⟨i, Text.byteLength before, Text.byteLength text⟩ →
      d.level = .error → d.code? = some .unterminatedString →
      d.span = ⟨⟨i + 1, Text.columnAfter w before⟩, Text.width w text⟩ →
      Tiled w i (before ++ text) [] ts ds → Tiled w i before text (t :: ts) (d :: ds)
  | dropped {before text rest ts d ds code} : text ≠ [] →
      d.level = .error → d.code? = some code → code ∈ LexicalFault.droppingCodes →
      d.span = ⟨⟨i + 1, Text.columnAfter w before⟩, Text.width w text⟩ →
      Tiled w i (before ++ text) rest ts ds → Tiled w i before (text ++ rest) ts (d :: ds)

/-- The tokens on line `i`, without the end of the file. -/
def tokensOn (i : Nat) (tokens : List Token) : List Token :=
  tokens.filter fun t => t.range.line == i && t.kind != .eof

/-- The reports on line `i`. -/
def reportsOn (i : Nat) (reports : List Diagnostic) : List Diagnostic :=
  reports.filter fun d => d.position.line == i + 1

/-! ### The pieces of one line -/

variable {w i : Nat} {before rest : List Char} {ts : List Token} {ds : List Diagnostic}

/-- What a piece gives covers the piece. -/
theorem Tiled.piece {p : Piece} {start : Place}
    (starts : start = ⟨i, Text.byteLength before, Text.columnAfter w before⟩)
    (sound : p.Sound rest) (nonempty : p.text ≠ []) (tail : Tiled w i (before ++ p.text) rest ts ds) :
    Tiled w i before (p.text ++ rest)
      ((Located.mk p start (start.after w p.text)).token?.toList ++ ts)
      ((Located.mk p start (start.after w p.text)).report?.toList ++ ds) := by
  subst starts
  have span : Span.mk (Position.mk (i + 1) (Text.columnAfter w before))
      (Text.columnAfter w before + Text.width w p.text - Text.columnAfter w before) =
      ⟨⟨i + 1, Text.columnAfter w before⟩, Text.width w p.text⟩ := by
    rw [Nat.add_sub_cancel_left]
  cases sound with
  | gap between =>
    obtain ⟨kind, fault⟩ := between.silent
    rw [Located.token?, Located.report?, kind, fault]
    exact .gap between tail
  | lexeme reading =>
    cases reading with
    | token spells ends => exact .token nonempty rfl tail
    | openString opened =>
      rw [List.append_nil]
      exact .openString nonempty rfl rfl rfl rfl span tail
    | dropped fault =>
      exact .dropped nonempty rfl rfl (LexicalFault.code_mem_droppingCodes fault) span tail

/-- What the pieces of a line give covers the line. -/
theorem tiled_locate {previous? : Option TokenKind} {ps : List Piece} {start : Place}
    (starts : start = ⟨i, Text.byteLength before, Text.columnAfter w before⟩)
    (cut : Piece.pieces previous? rest = ps) :
    Tiled w i before rest ((locate w start ps).filterMap (·.token?))
      ((locate w start ps).filterMap (·.report?)) := by
  induction ps generalizing previous? before rest start with
  | nil =>
    have empty : rest = [] := by rw [← Piece.texts_pieces previous? rest, cut]; rfl
    rw [empty]
    exact .done
  | cons p ps ih =>
    obtain ⟨_, _, -, -, tail⟩ := Piece.pieces_eq_cons cut
    have whole : p.text ++ Piece.texts ps = rest := by
      rw [← Piece.texts_cons, ← cut, Piece.texts_pieces]
    have next : start.after w p.text =
        ⟨i, Text.byteLength (before ++ p.text), Text.columnAfter w (before ++ p.text)⟩ := by
      rw [starts]
      simp [Place.after, Text.columnAfter]
      omega
    have first : Piece.pieces previous? rest = [] ++ p :: ps := cut
    have covered := Tiled.piece starts (Piece.pieces_sound first) (Piece.ne_nil_of_pieces first)
      (ih next tail)
    rw [whole] at covered
    simpa only [locate, List.filterMap_eq_flatMap_toList, List.flatMap_cons] using covered

/-! ### The lines of a source -/

theorem tokensOn_scan (s : Source) (i : Nat) :
    tokensOn i (s.scan.filterMap (·.token?) ++ [s.eofToken]) =
      (s.scan.filter (·.start.line == i)).filterMap (·.token?) := by
  have eof_off : [s.eofToken].filter (fun t => t.range.line == i && t.kind != .eof) = [] := by
    simp [Source.eofToken]
  rw [tokensOn, List.filter_append, eof_off, List.append_nil, List.filter_filterMap,
    List.filterMap_filter]
  refine List.filterMap_congr fun l mem => ?_
  cases given : l.token? with
  | none => simp
  | some t =>
    obtain ⟨_, _, _, stands⟩ := Source.stands_of_mem_scan mem
    have not_eof : t.kind ≠ .eof := stands.kind_ne_eof given
    have on_line : t.range.line = l.start.line := by rw [(Located.token?_eq_some given).2.2]
    simp [Option.filter, not_eof, on_line]

theorem reportsOn_scan (s : Source) (i : Nat) :
    reportsOn i (s.scan.filterMap (·.report?)) =
      (s.scan.filter (·.start.line == i)).filterMap (·.report?) := by
  rw [reportsOn, List.filter_filterMap, List.filterMap_filter]
  refine List.filterMap_congr fun l mem => ?_
  cases given : l.report? with
  | none => simp
  | some d =>
    obtain ⟨_, -, -, -, span⟩ := Located.report?_eq_some given
    have on_line : d.position.line = l.start.line + 1 := by rw [Diagnostic.position, span]; rfl
    simp [Option.filter, on_line]

namespace Source

variable {s : Source} {line : Line}

theorem tiled_code_line (here : s.lines.get? i = some line) (code : line.category = .code) :
    Tiled s.scanTabWidth i [] line.text
      (tokensOn i (s.scan.filterMap (·.token?) ++ [s.eofToken]))
      (reportsOn i (s.scan.filterMap (·.report?))) := by
  rw [tokensOn_scan, reportsOn_scan, scan_on_line here (Category.isCode_iff.mpr code)]
  exact tiled_locate rfl rfl

theorem off_code (here : s.lines.get? i = some line) (other : line.category ≠ .code) :
    tokensOn i (s.scan.filterMap (·.token?) ++ [s.eofToken]) = [] ∧
      reportsOn i (s.scan.filterMap (·.report?)) = [] := by
  have no_code : ¬ line.category.isCode := fun code => other (Category.isCode_iff.mp code)
  rw [tokensOn_scan, reportsOn_scan, scan_off_code here no_code]
  exact ⟨rfl, rfl⟩

theorem line_of_report {d : Diagnostic} (mem : d ∈ s.scan.filterMap (·.report?)) :
    ∃ i line, s.lines.get? i = some line ∧ line.category = .code ∧ d.position.line = i + 1 := by
  obtain ⟨l, scanned, given⟩ := List.mem_filterMap.mp mem
  obtain ⟨line, here, code⟩ := line_of_mem_scan scanned
  obtain ⟨_, -, -, -, span⟩ := Located.report?_eq_some given
  refine ⟨l.start.line, line, here, Category.isCode_iff.mp code, ?_⟩
  rw [Diagnostic.position, span]
  rfl

theorem line_of_token {t : Token} (mem : t ∈ s.scan.filterMap (·.token?)) :
    ∃ line, s.lines.get? t.range.line = some line ∧ line.category = .code := by
  obtain ⟨l, line, before, after, -, given, stands⟩ := stands_of_token mem
  exact ⟨line, (stands.between given).found, Category.isCode_iff.mp stands.code⟩

end Source

/-- No character of code is lost. Tokens and reports of a loaded source cover each of its code
lines and touch no other line, and no two reports stand at one position. -/
theorem lines_tiled {settings : SourceSettings} {code : List Char} {loaded : Loaded}
    (load : Source.ofText settings code = .ok loaded) (tab : 1 ≤ settings.tabWidth)
    (nonempty : 0 < loaded.source.lineCount) :
    ∃ tokens reports, loaded.source.tokenize = .ok (tokens, reports) ∧
      (∀ i line, loaded.source.lines.get? i = some line →
        if line.category = .code then
          Tiled settings.tabWidth i [] line.text (tokensOn i tokens) (reportsOn i reports)
        else tokensOn i tokens = [] ∧ reportsOn i reports = []) ∧
      (∀ t ∈ tokens, t.kind ≠ .eof → ∃ line, loaded.source.lines.get? t.range.line = some line) ∧
      (∀ d ∈ reports, ∃ i line, loaded.source.lines.get? i = some line ∧ d.position.line = i + 1) ∧
      reports.Pairwise fun d e => d.position.compare e.position = .lt := by
  refine ⟨_, _, Source.tokenize_eq nonempty, fun i line here => ?_, fun t mem inner => ?_,
    fun d mem => ?_, Source.reports_ordered _⟩
  · split
    · next code =>
      rw [← Source.scanTabWidth_ofText load tab]
      exact Source.tiled_code_line here code
    · next other => exact Source.off_code here other
  · rcases List.mem_append.mp mem with scanned | eof
    · obtain ⟨line, here, -⟩ := Source.line_of_token scanned
      exact ⟨line, here⟩
    · rw [List.mem_singleton.mp eof] at inner
      exact absurd rfl inner
  · obtain ⟨i, line, here, -, on_line⟩ := Source.line_of_report mem
    exact ⟨i, line, here, on_line⟩

theorem lines_tiled_of_open_string :
    ∃ loaded, Source.ofText { tabWidth := 4 } "\tx ?\"y".toList = .ok loaded ∧
      ∃ tokens reports, loaded.source.tokenize = .ok (tokens, reports) ∧
        Tiled 4 0 [] "\tx ?\"y".toList (tokensOn 0 tokens) (reportsOn 0 reports) := by
  have loads : Source.ofText { tabWidth := 4 } "\tx ?\"y".toList =
      .ok ⟨⟨.ofList [⟨.code, "\tx ?\"y".toList⟩], 4⟩, []⟩ := by decide +kernel
  obtain ⟨tokens, reports, given, covered, -⟩ := lines_tiled loads (by decide) (by decide)
  have first := covered 0 ⟨.code, "\tx ?\"y".toList⟩ rfl
  rw [if_pos rfl] at first
  exact ⟨_, loads, tokens, reports, given, first⟩

end VhdlFrontEnd
