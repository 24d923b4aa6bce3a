import VhdlFrontEnd.Text.Charset

/-!
# Reserved words

The reserved words of the language and of its later editions and extensions. A word is reserved
in any case. Main statement: `ofWord?` finds a keyword exactly if the word spells it in lower case.
-/

namespace VhdlFrontEnd

/-- The reserved words. Those that are reserved in Lean too end in `Word` here. -/
inductive Keyword
  | abs | access | after | alias | all | and | architecture | array | assert | attribute | begin
  | block | body | buffer | bus | case | component | configuration | constant | disconnect
  | downto | elseWord | elsif | endWord | entity | exit | file | forWord | function | generate
  | generic | guarded | ifWord | inWord | inout | is | label | library | linkage | loop | map
  | mod | nand | new | next | nor | not | null | of | on | openWord | or | others | out
  | package | port | procedure | process | range | record | register | rem | report | returnWord
  | select | severity | signal | subtype | thenWord | to | transport | type | units | untilWord
  | use | variableWord | wait | when | whileWord | withWord | xor | group | impure | inertial
  | literal | postponed | pure | reject | rol | ror | shared | sla | sll | sra | srl
  | unaffected | xnor | protectedWord | assume | assumeGuarantee | context | cover | default
  | fairness | force | inherit | parameter | property | release | restrict | restrictGuarantee
  | sequence | strong | vmode | vprop | vunit | privateWord | view | across | breakWord | limit
  | nature | noise | procedural | quantity | reference | spectrum | subnature | terminal
  | through | tolerance
deriving DecidableEq, Repr, Inhabited

namespace Keyword

/-- All reserved words: those of the first edition in alphabetical order, then those that each
later edition and extension added. -/
def words : List Keyword := [
  .abs, .access, .after, .alias, .all, .and, .architecture, .array, .assert, .attribute, .begin,
  .block, .body, .buffer, .bus, .case, .component, .configuration, .constant, .disconnect,
  .downto, .elseWord, .elsif, .endWord, .entity, .exit, .file, .forWord, .function, .generate,
  .generic, .guarded, .ifWord, .inWord, .inout, .is, .label, .library, .linkage, .loop, .map,
  .mod, .nand, .new, .next, .nor, .not, .null, .of, .on, .openWord, .or, .others, .out,
  .package, .port, .procedure, .process, .range, .record, .register, .rem, .report, .returnWord,
  .select, .severity, .signal, .subtype, .thenWord, .to, .transport, .type, .units, .untilWord,
  .use, .variableWord, .wait, .when, .whileWord, .withWord, .xor, .group, .impure, .inertial,
  .literal, .postponed, .pure, .reject, .rol, .ror, .shared, .sla, .sll, .sra, .srl,
  .unaffected, .xnor, .protectedWord, .assume, .assumeGuarantee, .context, .cover, .default,
  .fairness, .force, .inherit, .parameter, .property, .release, .restrict, .restrictGuarantee,
  .sequence, .strong, .vmode, .vprop, .vunit, .privateWord, .view, .across, .breakWord, .limit,
  .nature, .noise, .procedural, .quantity, .reference, .spectrum, .subnature, .terminal,
  .through, .tolerance]

/-- The word in lower case. -/
def spelling : Keyword → String
  | .abs => "abs"
  | .access => "access"
  | .after => "after"
  | .alias => "alias"
  | .all => "all"
  | .and => "and"
  | .architecture => "architecture"
  | .array => "array"
  | .assert => "assert"
  | .attribute => "attribute"
  | .begin => "begin"
  | .block => "block"
  | .body => "body"
  | .buffer => "buffer"
  | .bus => "bus"
  | .case => "case"
  | .component => "component"
  | .configuration => "configuration"
  | .constant => "constant"
  | .disconnect => "disconnect"
  | .downto => "downto"
  | .elseWord => "else"
  | .elsif => "elsif"
  | .endWord => "end"
  | .entity => "entity"
  | .exit => "exit"
  | .file => "file"
  | .forWord => "for"
  | .function => "function"
  | .generate => "generate"
  | .generic => "generic"
  | .guarded => "guarded"
  | .ifWord => "if"
  | .inWord => "in"
  | .inout => "inout"
  | .is => "is"
  | .label => "label"
  | .library => "library"
  | .linkage => "linkage"
  | .loop => "loop"
  | .map => "map"
  | .mod => "mod"
  | .nand => "nand"
  | .new => "new"
  | .next => "next"
  | .nor => "nor"
  | .not => "not"
  | .null => "null"
  | .of => "of"
  | .on => "on"
  | .openWord => "open"
  | .or => "or"
  | .others => "others"
  | .out => "out"
  | .package => "package"
  | .port => "port"
  | .procedure => "procedure"
  | .process => "process"
  | .range => "range"
  | .record => "record"
  | .register => "register"
  | .rem => "rem"
  | .report => "report"
  | .returnWord => "return"
  | .select => "select"
  | .severity => "severity"
  | .signal => "signal"
  | .subtype => "subtype"
  | .thenWord => "then"
  | .to => "to"
  | .transport => "transport"
  | .type => "type"
  | .units => "units"
  | .untilWord => "until"
  | .use => "use"
  | .variableWord => "variable"
  | .wait => "wait"
  | .when => "when"
  | .whileWord => "while"
  | .withWord => "with"
  | .xor => "xor"
  | .group => "group"
  | .impure => "impure"
  | .inertial => "inertial"
  | .literal => "literal"
  | .postponed => "postponed"
  | .pure => "pure"
  | .reject => "reject"
  | .rol => "rol"
  | .ror => "ror"
  | .shared => "shared"
  | .sla => "sla"
  | .sll => "sll"
  | .sra => "sra"
  | .srl => "srl"
  | .unaffected => "unaffected"
  | .xnor => "xnor"
  | .protectedWord => "protected"
  | .assume => "assume"
  | .assumeGuarantee => "assume_guarantee"
  | .context => "context"
  | .cover => "cover"
  | .default => "default"
  | .fairness => "fairness"
  | .force => "force"
  | .inherit => "inherit"
  | .parameter => "parameter"
  | .property => "property"
  | .release => "release"
  | .restrict => "restrict"
  | .restrictGuarantee => "restrict_guarantee"
  | .sequence => "sequence"
  | .strong => "strong"
  | .vmode => "vmode"
  | .vprop => "vprop"
  | .vunit => "vunit"
  | .privateWord => "private"
  | .view => "view"
  | .across => "across"
  | .breakWord => "break"
  | .limit => "limit"
  | .nature => "nature"
  | .noise => "noise"
  | .procedural => "procedural"
  | .quantity => "quantity"
  | .reference => "reference"
  | .spectrum => "spectrum"
  | .subnature => "subnature"
  | .terminal => "terminal"
  | .through => "through"
  | .tolerance => "tolerance"

/-- The name of the keyword in lists of tokens: its parts, capitalised and joined. -/
def name (k : Keyword) : String :=
  String.join ((k.spelling.toList.splitOn '_').map fun part => (String.ofList part).capitalize)

/-- The reserved words under their spellings. -/
def table : List (List Char × Keyword) := words.map fun k => (k.spelling.toList, k)

/-- The keyword that a word spells in any case. -/
def ofWord? (word : List Char) : Option Keyword := table.lookup (word.map Char.toLower)

/-- The length of the longest reserved word. -/
def maxLength : Nat := (words.map fun k => k.spelling.length).foldl max 0

/-- The keyword is the name of an operator. -/
def isOperator : Keyword → Bool
  | .abs | .not | .and | .or | .nand | .nor | .xor | .xnor | .mod | .rem | .sll | .srl | .sla
  | .sra | .rol | .ror => true
  | _ => false

theorem mem_words (k : Keyword) : k ∈ words := by cases k <;> decide

/-- No two keywords share a spelling, so each is found under its own. -/
theorem lookup_table_spelling (k : Keyword) : table.lookup k.spelling.toList = some k := by
  have : ∀ k ∈ words, table.lookup k.spelling.toList = some k := by decide +kernel
  exact this k (mem_words k)

theorem ofWord?_eq_some_iff {word : List Char} {k : Keyword} :
    ofWord? word = some k ↔ word.map Char.toLower = k.spelling.toList := by
  constructor
  · intro h
    obtain ⟨_, _, split, -⟩ := List.lookup_eq_some_iff.mp h
    have found : (word.map Char.toLower, k) ∈ table := by rw [split]; simp
    obtain ⟨j, -, hj⟩ := List.mem_map.mp found
    simp only [Prod.mk.injEq] at hj
    rw [← hj.1, hj.2]
  · intro h
    rw [ofWord?, h, lookup_table_spelling]

end Keyword

end VhdlFrontEnd
