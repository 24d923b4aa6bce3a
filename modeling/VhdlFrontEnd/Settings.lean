import VhdlFrontEnd.Batch
import VhdlFrontEnd.Disk.Tree
import VhdlFrontEnd.Toml.Document

/-!
# Settings

The settings of the program come from a file in which every setting may be missing. A setting of
another type, or a number out of range, makes the whole file unusable; names that are no settings
are passed over.
-/

namespace VhdlFrontEnd

structure Settings where
  /-- The most characters a line may have. -/
  maxLineLength : Nat := 4096
  /-- The columns of a tab, as it was set. -/
  tabWidth : Nat := 1
  /-- The number of workers for many files. -/
  jobs : Nat
  /-- Diagnostics are colored on a terminal. -/
  color : Bool := true
  /-- Diagnostics show the line that they are about. -/
  showSnippets : Bool := true
deriving DecidableEq, Repr, Inhabited

/-- Why settings could not be loaded or saved. -/
inductive SettingsFault
  | missing (path : String)
  | unreadable (cause : PathFault)
  | malformed
  /-- A number that the file format has no place for. -/
  | tooLarge (n : Nat)
  | unwritable (cause : PathFault)
deriving DecidableEq, Repr, Inhabited

namespace SettingsFault

/-- What went wrong, and what caused it. -/
def messages : SettingsFault → List String
  | missing path => ["Configuration error: Configuration file not found: " ++ path]
  | malformed => ["Configuration error: Failed to parse configuration"]
  | tooLarge n =>
    ["Configuration error: Failed to serialize configuration: out of range: " ++ toString n]
  | unreadable cause | unwritable cause => ["IO error: " ++ cause.message, cause.message]

def message (e : SettingsFault) : String := e.messages.headD ""

end SettingsFault

namespace Settings

/-- A group of settings: under names, or in the order in which they are declared. -/
inductive Group
  | named (entries : Toml.Entries)
  | listed (items : List Toml.Value)

/-- The group that a value stands for. A date is a group without settings. -/
def Group.ofValue? : Toml.Value → Option Group
  | .table _ entries => some (.named entries)
  | .array items => some (.listed items)
  | .tables items => some (.listed (items.map (.table .header)))
  | .moment => some (.named [])
  | _ => none

/-- The setting with a name, which is the one at `place` in the order of declarations. -/
def Group.find? (s : Group) (name : String) (place : Nat) : Option Toml.Value :=
  match s with
  | .named entries => entries.find? name
  | .listed items => items[place]?

/-- The group with a name; it is empty if it is missing. -/
def group? (entries : Toml.Entries) (name : String) : Option Group :=
  match entries.find? name with
  | none => some (.named [])
  | some v => Group.ofValue? v

/-- A number from zero up to `limit`, or `standard` if it is not set. -/
def number? (limit standard : Nat) : Option Toml.Value → Option Nat
  | none => some standard
  | some (.integer n) => if 0 ≤ n ∧ n ≤ limit then some n.toNat else none
  | some _ => none

/-- A truth value, or `standard` if it is not set. -/
def boolean? (standard : Bool) : Option Toml.Value → Option Bool
  | none => some standard
  | some (.boolean b) => some b
  | some _ => none

/-- The settings that hold where nothing is set, on a machine with `cpus` processors. -/
def standard (cpus : Nat) : Settings := { jobs := cpus }

/-- The settings that a document holds, if all of them can be used. -/
def ofEntries? (cpus : Nat) (entries : Toml.Entries) : Option Settings := do
  let s := standard cpus
  let lexer ← group? entries "lexer"
  let driver ← group? entries "driver"
  let output ← group? entries "output"
  return {
    maxLineLength :=
      ← number? Toml.integerMax s.maxLineLength (lexer.find? "max_line_length" 0)
    tabWidth := ← number? wordMax s.tabWidth (lexer.find? "tab_width" 1)
    jobs := ← number? wordMax s.jobs (driver.find? "jobs" 0)
    color := ← boolean? s.color (output.find? "color" 0)
    showSnippets := ← boolean? s.showSnippets (output.find? "show_snippets" 1) }

def ofText (cpus : Nat) (text : String) : Except SettingsFault Settings :=
  match (Toml.Document.parse? text.toList).bind (ofEntries? cpus) with
  | some s => .ok s
  | none => .error .malformed

def load (disk : Disk) (cpus : Nat) (path : String) : Except SettingsFault Settings :=
  if !disk.holds path then .error (.missing path)
  else
    match disk.read path with
    | .error cause => .error (.unreadable cause)
    | .ok bytes =>
      match String.fromUTF8? bytes with
      | some text => ofText cpus text
      | none => .error (.unreadable (.other "stream did not contain valid UTF-8"))

def fileName : String := "vlark.toml"

/-- Where settings files are looked for, in this order: in the working directory, below the user's
home, and in the directory for settings, which is below the home unless an absolute path is
given for it. -/
def places (home? configHome? : Option String) : List String :=
  let below (directory : String) := Path.join (Path.join directory "vlark") fileName
  let home? := home?.filter (!·.isEmpty)
  let underHome? := home?.map (Path.join · ".config")
  [fileName] ++ (underHome?.map below).toList ++
    (((configHome?.filter Path.isAbsolute).or underHome?).map below).toList

/-- The settings in the first of the places that has a file; without any, the standard ones. -/
def search (disk : Disk) (cpus : Nat) (places : List String) : Except SettingsFault Settings :=
  match places.find? disk.holds with
  | some path => load disk cpus path
  | none => .ok (standard cpus)

/-- The session under these settings; `jobs?` overrides the number of workers. -/
def session (s : Settings) (jobs? : Option Nat) : Session where
  settings := SourceSettings.withTabWidth { maxLineLength := s.maxLineLength } s.tabWidth
  jobs := jobs?.getD s.jobs

/-- A line of a settings file. -/
def renderEntry (name value : String) : String := name ++ " = " ++ value ++ "\n"

/-- A truth value in a settings file. -/
def renderBool (b : Bool) : String := if b then "true" else "false"

/-- The text of a settings file in which everything is set. -/
def render (s : Settings) : String :=
  "[lexer]\n" ++ renderEntry "max_line_length" (toString s.maxLineLength) ++
    renderEntry "tab_width" (toString s.tabWidth) ++
    "\n[driver]\n" ++ renderEntry "jobs" (toString s.jobs) ++
    "\n[output]\n" ++ renderEntry "color" (renderBool s.color) ++
    renderEntry "show_snippets" (renderBool s.showSnippets)

/-- The number that the file format has no place for. -/
def tooLarge? (s : Settings) : Option Nat :=
  [s.maxLineLength, s.tabWidth, s.jobs].find? (Toml.integerMax < ·)

/-- The tree with the settings in a file. The directories above it are made first. -/
def save (s : Settings) (tree : Tree) (working : List String) (path : String) :
    Except SettingsFault Tree := do
  let tree ← (tree.makeParents working path).mapError .unwritable
  match s.tooLarge? with
  | some n => throw (.tooLarge n)
  | none => (tree.write working path s.render.toUTF8).mapError .unwritable

theorem search_eq_standard {disk : Disk} {cpus : Nat} {places : List String}
    (h : ∀ path ∈ places, disk.holds path = false) :
    search disk cpus places = .ok (standard cpus) := by
  unfold search
  rw [List.find?_eq_none.mpr fun path hp => by simp [h path hp]]

end Settings

end VhdlFrontEnd
