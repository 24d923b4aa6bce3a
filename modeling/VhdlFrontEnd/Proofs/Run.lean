import VhdlFrontEnd.FrontEnd
import VhdlFrontEnd.Proofs.Tokens

/-!
# A run and its phases

`ofText_run` says what a run over a text that loads is made of: its lines, its tokens, the reports
of the three phases one after the other, and the outline.
-/

namespace VhdlFrontEnd

namespace Source

/-- All tokens, with the end of the file. -/
def allTokens (s : Source) : List Token := s.scan.filterMap (·.token?) ++ [s.eofToken]

/-- The reports of faulty pieces. -/
def lexicalReports (s : Source) : List Diagnostic := s.scan.filterMap (·.report?)

def outlineReports (s : Source) : List Diagnostic := (Outline.parse s s.allTokens).2

theorem ofText_eq_ok {settings : SourceSettings} {code : List Char} {loaded : Loaded} :
    ofText settings code = .ok loaded ↔
      overlong? settings.maxLineLength (Text.physicalLines code) = none ∧
        loaded = ofLines settings.tabWidth (Text.physicalLines code) := by
  unfold ofText
  dsimp only
  split
  · next fault found => simp [found]
  · next found => simp [found, eq_comm]

theorem lineCount_ofLines (w : Nat) (texts : List (List Char)) :
    (ofLines w texts).source.lineCount = texts.length := by
  rw [lineCount, Arena.size_eq, ← List.length_map (·.text), texts_ofLines]

theorem lineCount_pos_of_get? {s : Source} {i : Nat} {line : Line} (here : s.lines.get? i = some line) :
    0 < s.lineCount := by
  rw [Arena.get?_eq] at here
  rw [lineCount, Arena.size_eq]
  exact Nat.zero_lt_of_lt (List.getElem?_eq_some_iff.mp here).1

end Source

/-- All reports about a loaded source, phase by phase. -/
def Loaded.allReports (loaded : Loaded) : List Diagnostic :=
  loaded.reports ++ loaded.source.lexicalReports ++ loaded.source.outlineReports

/-- A run over a text that loads as a source with some line. -/
theorem Analysis.ofText_run {settings : SourceSettings} {code : List Char} {loaded : Loaded}
    (load : Source.ofText settings code = .ok loaded) (nonempty : 0 < loaded.source.lineCount) :
    Analysis.ofText settings code = .ok
      { source := loaded.source
        tokens := loaded.source.allTokens
        reports := loaded.allReports
        outline := (Outline.parse loaded.source loaded.source.allTokens).1 } := by
  have lexed : Lexed.ofLoad (Source.ofText settings code) = .ok
      ⟨loaded.source, loaded.source.allTokens, loaded.reports ++ loaded.source.lexicalReports⟩ := by
    rw [load, Lexed.ofLoad, Lexed.ofLoaded, Source.tokenize_eq nonempty]
    rfl
  rw [Analysis.ofText, lexed]
  rfl

end VhdlFrontEnd
