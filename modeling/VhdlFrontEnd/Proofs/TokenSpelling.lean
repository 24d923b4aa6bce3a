import Mathlib.Data.List.Basic
import VhdlFrontEnd.Proofs.Tokens

/-!
# The spelling of tokens

`tokens_spelled` shows that every token of a source is spelled as its kind asks. Only a string that
lacks its closing quote is let through as a token, and it is reported.
-/

namespace VhdlFrontEnd

/-- A string token that runs to the end of its line; just one report stands where it starts. -/
structure Token.OpenReported (t : Token) (text after : List Char) (reports : List Diagnostic) : Prop where
  kind : t.kind = .string
  text : OpenString text
  ends : after = []
  reported : ∃ d, reports.filter (·.position == t.position) = [d] ∧ d.level = .error ∧
    d.code? = some .unterminatedString

namespace Source

variable {s : Source}

/-- A piece that is a token without its closing quote is reported where the token starts. -/
theorem openReported_of_scan {l : Located} {t : Token} {after : List Char} (scanned : l ∈ s.scan)
    (given : l.token? = some t) (kind : t.kind = .string)
    (fault : l.piece.fault? = some .unterminatedString) (opened : OpenString l.piece.text)
    (ends : after = []) :
    t.OpenReported l.piece.text after (s.scan.filterMap (·.report?)) := by
  obtain ⟨d, report⟩ : ∃ d, l.report? = some d := by simp [Located.report?, fault]
  obtain ⟨found, same, level, code, -⟩ := Located.report?_eq_some report
  have filed : d.code? = some .unterminatedString := by
    rw [code, Option.some.inj (same.symm.trans fault)]
    rfl
  refine ⟨kind, opened, ends, d, ?_, level, filed⟩
  rw [(Located.token?_eq_some given).2.1, filter_position_reports scanned, report]
  rfl

theorem spelled_of_scan {t : Token} (mem : t ∈ s.scan.filterMap (·.token?)) :
    ∃ line before after, t.Between s line before after ∧
      (Spells t.kind (s.spelling t) ∨
        t.OpenReported (s.spelling t) after (s.scan.filterMap (·.report?))) ∧
      (IsWord t.kind (s.spelling t) → WordEnds after) := by
  obtain ⟨l, line, before, after, scanned, given, stands⟩ := stands_of_token mem
  have spelled := Located.spelling_of_stands stands given
  refine ⟨line, before, after, stands.between given, ?_⟩
  rw [spelled]
  rcases stands.sound.of_kind (Located.token?_eq_some given).1 with
    ⟨spells, -, ends⟩ | ⟨string, fault, opened, ends⟩
  · exact ⟨Or.inl spells, ends⟩
  · refine ⟨Or.inr (openReported_of_scan scanned given string fault opened ends), fun _ => ?_⟩
    rw [ends]
    exact fun c none => nomatch none

end Source

/-- The kind of every token is borne out by its spelling, and the tokens that are words end where
the word ends. -/
theorem tokens_spelled {s : Source} (nonempty : 0 < s.lineCount) :
    ∃ tokens reports, s.tokenize = .ok (tokens, reports) ∧
      ∀ t ∈ tokens, ∃ line before after, t.Between s line before after ∧
        (Spells t.kind (s.spelling t) ∨ t.OpenReported (s.spelling t) after reports) ∧
        (IsWord t.kind (s.spelling t) → WordEnds after) := by
  refine ⟨_, _, Source.tokenize_eq nonempty, fun t mem => ?_⟩
  rcases List.mem_append.mp mem with scanned | eof
  · exact Source.spelled_of_scan scanned
  · rw [List.mem_singleton.mp eof]
    obtain ⟨-, spelled, last, between, -⟩ := Source.eofToken_between nonempty
    refine ⟨last, last.text, [], between, Or.inl ?_, fun _ c none => nomatch none⟩
    rw [spelled]
    exact .eof

theorem tokens_spelled_of_bit_string :
    ∃ loaded, Source.ofText {} "x\"F_\" \"y".toList = .ok loaded ∧
      ∃ tokens reports, loaded.source.tokenize = .ok (tokens, reports) ∧
        ∀ t ∈ tokens, Spells t.kind (loaded.source.spelling t) ∨
          ∃ after, t.OpenReported (loaded.source.spelling t) after reports := by
  have loads : Source.ofText {} "x\"F_\" \"y".toList =
      .ok ⟨⟨.ofList [⟨.code, "x\"F_\" \"y".toList⟩], 1⟩, []⟩ := by decide +kernel
  obtain ⟨tokens, reports, given, spelled⟩ :=
    tokens_spelled (s := ⟨.ofList [⟨.code, "x\"F_\" \"y".toList⟩], 1⟩) (by decide)
  refine ⟨_, loads, tokens, reports, given, fun t mem => ?_⟩
  obtain ⟨-, -, after, -, spells, -⟩ := spelled t mem
  exact spells.imp_right fun opened => ⟨after, opened⟩

end VhdlFrontEnd
