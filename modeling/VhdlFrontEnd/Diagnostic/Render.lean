import VhdlFrontEnd.Diagnostic.Basic

/-!
# Rendered diagnostics

A rendered diagnostic is a header with file, position, level and message, the line it is about
with carets under the reported columns, and its notes and helps. Main statement: rendering
succeeds for every diagnostic about a line that the source has.
-/

namespace VhdlFrontEnd

namespace Snippet

/-- The number at the right end of `width` columns. -/
def gutter (width : Nat) (text : String) : String :=
  String.ofList (List.replicate (width - text.length) ' ') ++ text ++ " | "

/-- What stands before the carets: one blank for each character of the line before the
underlined columns, and a tab where the line has a tab, so that both lines stay aligned. -/
def indent (line : List Char) (columns : Nat) : List Char :=
  (line.take columns).map (fun c => if c = '\t' then '\t' else ' ') ++
    List.replicate (columns - line.length) ' '

/-- The line after its number, and below it the carets, at least one, with the label. -/
def render (s : Snippet) : String :=
  let number := toString s.number
  let width := max 3 number.length
  gutter width number ++ s.line ++ "\n" ++ gutter width "" ++
    String.ofList (indent s.line.toList (s.startColumn - 1)) ++
    String.ofList (List.replicate (max 1 (s.endColumn - s.startColumn)) '^') ++
    (s.label?.elim "" (" " ++ ·))

end Snippet

/-- A diagnostic points at a line that the source does not have. -/
structure LineOutOfRange where
  line : Nat
  lineCount : Nat
deriving DecidableEq, Repr

def LineOutOfRange.message (e : LineOutOfRange) : String :=
  "Diagnostic refers to line " ++ toString e.line ++ ", source has " ++
    toString e.lineCount ++ " lines"

/-- How diagnostics are rendered: with colors or plain, with the source line or without. -/
structure Renderer where
  color : Bool := false
  snippets : Bool := true
deriving DecidableEq, Repr, Inhabited

namespace Renderer

/-- File, position, level, code and message. A diagnostic without a place has no position. -/
def header (r : Renderer) (file : String) (d : Diagnostic) : String :=
  file ++ (if d.span = Span.nowhere then "" else ":" ++ d.span.render) ++ ": " ++
    (if r.color then d.level.paint d.level.name else d.level.name) ++
    (d.code?.elim "" fun c => "[" ++ c.render ++ "]") ++ ": " ++ d.message ++ "\n"

/-- The line that the diagnostic is about, if it is about one and lines are wanted. -/
def excerpt (r : Renderer) (lines : Array (List Char)) (d : Diagnostic) :
    Except LineOutOfRange String :=
  if r.snippets && d.span ≠ Span.nowhere then
    match d.span.start.line with
    | 0 => .error ⟨0, lines.size⟩
    | n + 1 =>
      match lines[n]? with
      | some line => .ok ((Snippet.ofSpan (String.ofList line) d.span).render ++ "\n")
      | none => .error ⟨n + 1, lines.size⟩
  else .ok ""

/-- The snippets, notes and helps that a diagnostic carries itself. -/
def attachments (d : Diagnostic) : String :=
  String.join (d.snippets.map (·.render ++ "\n") ++
    d.notes.map (fun s => "    = note: " ++ s ++ "\n") ++
    d.helps.map (fun s => "    = help: " ++ s ++ "\n"))

/-- The whole text of a diagnostic about `file`, whose lines are `lines`. -/
def render (r : Renderer) (file : String) (lines : Array (List Char)) (d : Diagnostic) :
    Except LineOutOfRange String := do
  let excerpt ← r.excerpt lines d
  return r.header file d ++ excerpt ++ attachments d

theorem render_isOk (r : Renderer) (file : String) (lines : Array (List Char)) (d : Diagnostic)
    (first : 1 ≤ d.span.start.line) (last : d.span.start.line ≤ lines.size) :
    (r.render file lines d).isOk := by
  obtain ⟨n, hn⟩ : ∃ n, d.span.start.line = n + 1 := ⟨d.span.start.line - 1, by omega⟩
  have hlt : n < lines.size := by omega
  unfold render excerpt
  rw [hn]
  simp only [Array.getElem?_eq_getElem hlt]
  split <;> rfl

end Renderer

end VhdlFrontEnd
