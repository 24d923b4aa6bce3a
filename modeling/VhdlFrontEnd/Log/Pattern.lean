import VhdlFrontEnd.Text.Alphanumeric
import VhdlFrontEnd.Text.Charset
import VhdlFrontEnd.Text.Space

/-!
# Patterns

A pattern stands for texts: characters and classes of them, alternatives, repetitions and groups.
Of letter case, classes and word boundaries a pattern knows only the ASCII ones, so those are at
hand only where it leaves Unicode, and there a part that could match half a character is refused.
Groups may nest without a limit. No pattern is ever matched here; what counts is whether a text is
one.
-/

namespace VhdlFrontEnd.Pattern

/-- How the text of a pattern is meant. -/
structure Mode where
  /-- Blanks and comments do not count. -/
  spaced : Bool := false
  /-- The pattern is about characters, and else about bytes. -/
  unicode : Bool := true
  /-- Letter case does not count. -/
  caseless : Bool := false
deriving DecidableEq, Repr, Inhabited

/-- The text after blanks and after comments, which go from a hash to the end of the line. -/
def afterBlanks (inComment : Bool) : List Char → List Char
  | [] => []
  | c :: cs =>
    if inComment then afterBlanks (c ≠ '\n') cs
    else if Text.isSpace c then afterBlanks false cs
    else if c = '#' then afterBlanks true cs
    else c :: cs

namespace Mode

/-- The text from the next character that counts. -/
def next (m : Mode) (cs : List Char) : List Char := if m.spaced then afterBlanks false cs else cs

/-- Characters can be taken as they are, for lack of what would equate them with others. -/
def keepsCase (m : Mode) : Bool := !(m.caseless && m.unicode)

/-- The mode with a setting on or off. -/
def set (m : Mode) (on : Bool) (letter : Char) : Mode :=
  match letter with
  | 'x' => { m with spaced := on }
  | 'u' => { m with unicode := on }
  | 'i' => { m with caseless := on }
  | _ => m

/-- The mode after letters that turn settings on and, after a dash, off. -/
def change (m : Mode) (letters : List Char) : Mode :=
  let m := (letters.takeWhile (· ≠ '-')).foldl (set · true) m
  (letters.dropWhile (· ≠ '-')).foldl (set · false) m

end Mode

/-! ## Single parts -/

/-- What stands for a character, for some characters, or for a place between them. -/
inductive Part
  | char (c : Char)
  /-- A character given as a byte. -/
  | byte (c : Char)
  /-- The digits, blanks or word characters, or all others. -/
  | kind (negated : Bool)
  | wordBoundary
  | boundary
deriving DecidableEq, Repr, Inhabited

namespace Part

/-- The character, if the part stands for one. -/
def char? : Part → Option Char
  | char c | byte c => some c
  | _ => none

/-- The part may stand in a pattern. -/
def isAllowed (m : Mode) : Part → Bool
  | char _ => m.keepsCase
  | byte c => m.keepsCase && (m.unicode || Text.isAscii c)
  | kind negated => !m.unicode && !negated
  | wordBoundary => !m.unicode
  | boundary => true

/-- The part may stand in a class. -/
def isAllowedInClass (m : Mode) : Part → Bool
  | char c | byte c => m.unicode || Text.isAscii c
  | kind negated => !m.unicode && !negated
  | _ => false

end Part

/-- The number that some hexadecimal digits stand for, and the rest. -/
def hexadecimal? (m : Mode) (value : Nat) : Nat → List Char → Option (Nat × List Char)
  | 0, cs => some (value, cs)
  | count + 1, cs =>
    match m.next cs with
    | c :: rest => do hexadecimal? m (16 * value + (← Text.digitValue? c)) count rest
    | [] => none

/-- The character whose number is given in hexadecimal digits, and the rest. -/
def numbered? (m : Mode) (count : Nat) (cs : List Char) : Option (Char × List Char) := do
  let (value, rest) ← hexadecimal? m 0 count cs
  if value.isValidChar then some (Char.ofNat value, rest) else none

/-- The control characters that have a letter. -/
def controls : List (Char × Char) :=
  [('a', '\x07'), ('f', '\x0c'), ('n', '\n'), ('r', '\r'), ('t', '\t'), ('v', '\x0b')]

/-- What stands after a backslash, and the rest. ASCII characters that are neither letters nor
digits nor angle brackets stand for themselves. -/
def escaped? (m : Mode) : List Char → Option (Part × List Char)
  | [] => none
  | 'x' :: rest => (numbered? m 2 rest).map fun (c, rest) => (.byte c, rest)
  | 'u' :: rest => (numbered? m 4 rest).map fun (c, rest) => (.char c, rest)
  | 'U' :: rest => (numbered? m 8 rest).map fun (c, rest) => (.char c, rest)
  | c :: rest =>
    if ['d', 's', 'w'].contains c then some (.kind false, rest)
    else if ['D', 'S', 'W'].contains c then some (.kind true, rest)
    else if ['b', 'B', '<', '>'].contains c then some (.wordBoundary, rest)
    else if ['A', 'z'].contains c then some (.boundary, rest)
    else
      match controls.lookup c with
      | some control => some (.char control, rest)
      | none => if Text.isAscii c && !c.isAlphanum then some (.char c, rest) else none

/-! ## Classes -/

/-- The names of the classes that stand between colons in a class. -/
def classNames : List String :=
  ["alnum", "alpha", "ascii", "blank", "cntrl", "digit", "graph", "lower", "print", "punct",
    "space", "upper", "word", "xdigit"]

/-- The rest after a named class, whose opening bracket is gone. -/
def afterNamedClass? (m : Mode) : List Char → Option (List Char)
  | ':' :: cs =>
    let negated := cs.head? = some '^'
    let cs := if negated then cs.tail else cs
    match cs.dropWhile (· ≠ ':') with
    | ':' :: ']' :: rest =>
      if classNames.contains (String.ofList (cs.takeWhile (· ≠ ':'))) && (m.unicode || !negated)
      then some rest else none
    | _ => none
  | _ => none

/-- The rest after what opens a class: a caret, which negates it, and dashes or else a closing
bracket, which stand for themselves there. -/
def afterClassOpening? (m : Mode) (cs : List Char) : Option (List Char) :=
  let cs := m.next cs
  let negated := cs.head? = some '^'
  let cs := if negated then m.next cs.tail else cs
  let body := cs.dropWhile fun c => c = '-' || (m.spaced && Text.isSpace c)
  if !m.keepsCase || (negated && !m.unicode) then none
  else if cs.head? = some '-' then some body
  else if cs.head? = some ']' then some cs.tail
  else some cs

/-- A member of a class, and the rest. -/
def member? (m : Mode) : List Char → Option (Part × List Char)
  | [] => none
  | '\\' :: rest => (escaped? m rest).filter (·.1.isAllowedInClass m)
  | c :: rest => if (Part.char c).isAllowedInClass m then some (.char c, rest) else none

/-- The rest after a member of a class or a range from one to another. A dash before the end of the
class or before another dash makes no range. -/
def afterMember? (m : Mode) (cs : List Char) : Option (List Char) := do
  let (first, rest) ← member? m cs
  match m.next rest with
  | '-' :: after =>
    if ((m.next after).head?.any fun c => c = ']' || c = '-') then some ('-' :: after)
    else
      let (last, rest) ← member? m (m.next after)
      if (← first.char?) ≤ (← last.char?) then some rest else none
  | rest => some rest

/-- The rest after a class, where `depth` classes are open around the innermost. The fuel is the
number of members and brackets that may come. -/
def afterClass? (m : Mode) (depth : Nat) : Nat → List Char → Option (List Char)
  | 0, _ => none
  | fuel + 1, cs =>
    match m.next cs with
    | [] => none
    | '[' :: rest =>
      match afterNamedClass? m rest with
      | some rest => afterClass? m depth fuel rest
      | none => do afterClass? m (depth + 1) fuel (← afterClassOpening? m rest)
    | ']' :: rest => if depth = 0 then some rest else afterClass? m (depth - 1) fuel rest
    | '&' :: '&' :: rest | '-' :: '-' :: rest | '~' :: '~' :: rest =>
      afterClass? m depth fuel rest
    | cs => do afterClass? m depth fuel (← afterMember? m cs)

/-! ## Whole patterns -/

/-- How far a pattern is read. -/
structure Progress where
  mode : Mode := {}
  /-- The modes around the open groups, the innermost first. -/
  outer : List Mode := []
  /-- The names of groups. No two groups share one. -/
  names : List (List Char) := []
  /-- There is something to repeat. -/
  repeatable : Bool := false
deriving DecidableEq, Repr, Inhabited

namespace Progress

/-- A group is opened, in a mode of its own. -/
def opened (p : Progress) (mode : Mode) : Progress :=
  { p with mode, outer := p.mode :: p.outer, repeatable := false }

/-- A name of a group starts with a letter or an underscore; only ASCII digits are told from
letters. -/
def isGroupName : List Char → Bool
  | [] => false
  | c :: cs =>
    (c = '_' || (Text.isAlphanumeric c && !c.isDigit)) &&
      cs.all fun c => c = '_' || c = '.' || c = '[' || c = ']' || Text.isAlphanumeric c

/-- A group with a name, after the angle bracket that opens the name. -/
def named? (p : Progress) (cs : List Char) : Option (Progress × List Char) :=
  let name := cs.takeWhile (· ≠ '>')
  match cs.dropWhile (· ≠ '>') with
  | _ :: rest =>
    if isGroupName name && !p.names.contains name then
      some ({ p.opened p.mode with names := name :: p.names }, rest)
    else none
  | [] => none

/-- The letters of the settings, and the dash after which they are off. -/
def settingMarks : List Char := ['i', 'm', 's', 'U', 'u', 'R', 'x', '-']

/-- Settings after a question mark: with a colon they are for a group, which may have none, and
with a closing parenthesis for what comes. -/
def settings? (p : Progress) (cs : List Char) : Option (Progress × List Char) :=
  let ends (c : Char) : Bool := c = ':' || c = ')'
  let letters := cs.takeWhile (!ends ·)
  if !letters.all settingMarks.contains ||
      letters.eraseDups.length ≠ letters.length || letters.getLast? = some '-' then none
  else
    let mode := p.mode.change letters
    match cs.dropWhile (!ends ·) with
    | ':' :: rest => some (p.opened mode, rest)
    | _ :: rest =>
      if letters.isEmpty then none else some ({ p with mode, repeatable := false }, rest)
    | [] => none

/-- A group, whose opening parenthesis is gone. A group never looks ahead or behind. -/
def group? (p : Progress) (cs : List Char) : Option (Progress × List Char) :=
  match p.mode.next cs with
  | '?' :: '<' :: '=' :: _ | '?' :: '<' :: '!' :: _ => none
  | '?' :: 'P' :: '<' :: rest | '?' :: '<' :: rest => p.named? rest
  | '?' :: rest => p.settings? rest
  | rest => some (p.opened p.mode, rest)

/-- The next part of the pattern is read. A repetition of a given count has no place in a filter,
where its closing brace would end the field. -/
def step? (p : Progress) (cs : List Char) : Option (Progress × List Char) :=
  let operand : Progress := { p with repeatable := true }
  match cs with
  | [] => none
  | '(' :: rest => p.group? rest
  | ')' :: rest =>
    match p.outer with
    | [] => none
    | mode :: outer => some ({ operand with mode, outer }, rest)
  | '|' :: rest => some ({ p with repeatable := false }, rest)
  | '[' :: rest => do
    let rest ← afterClassOpening? p.mode rest
    return (operand, ← afterClass? p.mode 0 (rest.length + 1) rest)
  | '\\' :: rest => do
    let (part, rest) ← escaped? p.mode rest
    if part.isAllowed p.mode then some (operand, rest) else none
  | '.' :: rest => if p.mode.unicode then some (operand, rest) else none
  | '^' :: rest | '$' :: rest => some (operand, rest)
  | '\x7b' :: _ => none
  | c :: rest =>
    if c = '*' || c = '+' || c = '?' then
      if p.repeatable then some (p, if rest.head? = some '?' then rest.tail else rest) else none
    else if p.mode.keepsCase then some (operand, rest)
    else none

/-- The pattern is complete at the end of the text. The fuel is the number of parts that may
come. -/
def isComplete (p : Progress) : Nat → List Char → Bool
  | 0, _ => false
  | fuel + 1, cs =>
    match p.mode.next cs with
    | [] => p.outer.isEmpty
    | cs => (p.step? cs).any fun (p, rest) => p.isComplete fuel rest

end Progress

/-- The text is a pattern. -/
def isWellFormed (cs : List Char) : Bool := ({} : Progress).isComplete (cs.length + 1) cs

end VhdlFrontEnd.Pattern
