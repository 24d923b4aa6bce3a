import VhdlFrontEnd.Position

/-!
# The command line

Arguments are read from left to right. An argument that starts with a dash names options, unless
it is a single dash or stands after two dashes alone; any other argument is the value of the
option before it or names an input. The first fault, or the first wish for help or for the version,
ends the reading.
-/

namespace VhdlFrontEnd.Command

/-- What to print of the inputs, where anything is. -/
inductive Emit
  | tokens
  | outline
deriving DecidableEq, Repr, Inhabited

namespace Emit

def all : List Emit := [tokens, outline]

def name : Emit → String
  | tokens => "tokens"
  | outline => "ast"

end Emit

/-- The options of the program. -/
inductive Switch
  | file
  | printOutline
  | emit
  | jobs
  | verbose
  | config
  | noColor
  | help
  | version
deriving DecidableEq, Repr, Inhabited

namespace Switch

def all : List Switch :=
  [file, printOutline, emit, jobs, verbose, config, noColor, help, version]

/-- The name after two dashes. -/
def name : Switch → String
  | file => "file"
  | printOutline => "print-ast"
  | emit => "emit"
  | jobs => "jobs"
  | verbose => "verbose"
  | config => "config"
  | noColor => "no-color"
  | help => "help"
  | version => "version"

/-- The letter after one dash. -/
def letter? : Switch → Option Char
  | file => some 'f'
  | jobs => some 'j'
  | verbose => some 'v'
  | config => some 'c'
  | help => some 'h'
  | version => some 'V'
  | _ => none

def takesValue : Switch → Bool
  | file | emit | jobs | config => true
  | _ => false

def ofName? (name : List Char) : Option Switch := all.find? fun s => s.name.toList == name

def ofLetter? (c : Char) : Option Switch := all.find? fun s => s.letter? == some c

end Switch

/-- Why a command line cannot be used. -/
inductive UsageFault
  | unknown (argument : String)
  | missingValue (option : Switch)
  /-- The option takes no value. -/
  | unexpectedValue (option : Switch) (value : String)
  | repeated (option : Switch)
  | invalidValue (option : Switch) (value : String)
  | emptyInput
  /-- The value of an environment variable does not fit its option. -/
  | invalidVariable (variableName value : String)
deriving DecidableEq, Repr, Inhabited

def UsageFault.message : UsageFault → String
  | unknown argument => "unexpected argument '" ++ argument ++ "' found"
  | missingValue option => "a value is required for '--" ++ option.name ++ "' but none was supplied"
  | unexpectedValue option value =>
    "unexpected value '" ++ value ++ "' for '--" ++ option.name ++ "' found"
  | repeated option => "the argument '--" ++ option.name ++ "' cannot be used multiple times"
  | invalidValue option value => "invalid value '" ++ value ++ "' for '--" ++ option.name ++ "'"
  | emptyInput => "a value is required for '[FILE]...' but none was supplied"
  | invalidVariable variableName value =>
    "invalid value '" ++ value ++ "' in the variable " ++ variableName

/-- Why reading the command line stops. -/
inductive Stop
  | usage (fault : UsageFault)
  | help
  | version
deriving DecidableEq, Repr, Inhabited

/-- What the command line gives. -/
structure Options where
  /-- The inputs that are named without an option. -/
  inputs : List String := []
  /-- The inputs that are named with one. -/
  files : List String := []
  printOutline : Bool := false
  emit? : Option Emit := none
  jobs? : Option Nat := none
  verbose : Bool := false
  config? : Option String := none
  noColor : Bool := false
deriving DecidableEq, Repr, Inhabited

/-- The value of decimal digits. -/
def digits? (cs : List Char) : Option Nat :=
  if cs.isEmpty || cs.any (!·.isDigit) then none
  else some (cs.foldl (fun n c => 10 * n + (c.toNat - '0'.toNat)) 0)

/-- The number of workers that a text stands for: a word of 32 bits, with or without a sign. -/
def jobs? (text : String) : Option Nat :=
  let n? := match text.toList with
    | '+' :: cs => digits? cs
    | '-' :: cs => (digits? cs).filter (· = 0)
    | cs => digits? cs
  n?.filter (· ≤ wordMax)

namespace Options

/-- The inputs, those without an option first. -/
def sources (o : Options) : List String := o.inputs ++ o.files

/-- The outline of each input is printed. -/
def wantsOutline (o : Options) : Bool := o.printOutline || o.emit? == some .outline

def addInput (o : Options) (path : String) : Except Stop Options :=
  if path.isEmpty then .error (.usage .emptyInput) else .ok { o with inputs := o.inputs ++ [path] }

/-- An option without a value. No option of this kind is given twice. -/
def turnOn (o : Options) : Switch → Except Stop Options
  | .printOutline =>
    if o.printOutline then .error (.usage (.repeated .printOutline))
    else .ok { o with printOutline := true }
  | .verbose =>
    if o.verbose then .error (.usage (.repeated .verbose)) else .ok { o with verbose := true }
  | .noColor =>
    if o.noColor then .error (.usage (.repeated .noColor)) else .ok { o with noColor := true }
  | .help => .error .help
  | .version => .error .version
  | other => .error (.usage (.missingValue other))

/-- An option with its value. Only inputs are named more than once, and no path is empty. -/
def set (o : Options) (option : Switch) (value : String) : Except Stop Options :=
  match option with
  | .file =>
    if value.isEmpty then .error (.usage (.missingValue .file))
    else .ok { o with files := o.files ++ [value] }
  | .config =>
    if o.config?.isSome then .error (.usage (.repeated .config))
    else if value.isEmpty then .error (.usage (.missingValue .config))
    else .ok { o with config? := some value }
  | .emit =>
    if o.emit?.isSome then .error (.usage (.repeated .emit))
    else
      match Emit.all.find? (·.name == value) with
      | some choice => .ok { o with emit? := some choice }
      | none => .error (.usage (.invalidValue .emit value))
  | .jobs =>
    if o.jobs?.isSome then .error (.usage (.repeated .jobs))
    else
      match Command.jobs? value with
      | some n => .ok { o with jobs? := some n }
      | none => .error (.usage (.invalidValue .jobs value))
  | other => .error (.usage (.unexpectedValue other value))

/-- The options that letters after one dash name. After an option that takes a value, the rest of
the argument is the value; without a rest the option waits for the next argument. -/
def cluster (o : Options) : List Char → Except Stop (Options × Option Switch)
  | [] => .ok (o, none)
  | c :: cs =>
    match Switch.ofLetter? c with
    | none => .error (.usage (.unknown ("-" ++ String.ofList [c])))
    | some option =>
      if option.takesValue then
        match cs with
        | [] => .ok (o, some option)
        | '=' :: value => (o.set option (String.ofList value)).map (·, none)
        | value => (o.set option (String.ofList value)).map (·, none)
      else
        match o.turnOn option with
        | .ok o => o.cluster cs
        | .error stop => .error stop

/-- The option that a name after two dashes names, with its value after an equals sign. -/
def long (o : Options) (cs : List Char) : Except Stop (Options × Option Switch) :=
  let name := cs.takeWhile (· ≠ '=')
  match Switch.ofName? name, cs.dropWhile (· ≠ '=') with
  | none, _ => .error (.usage (.unknown (String.ofList ('-' :: '-' :: name))))
  | some option, [] =>
    if option.takesValue then .ok (o, some option) else (o.turnOn option).map (·, none)
  | some option, _ :: value => (o.set option (String.ofList value)).map (·, none)

/-- The options after the arguments, where `waiting?` waits for its value. -/
def readFrom (o : Options) (waiting? : Option Switch) : List String → Except Stop Options
  | [] =>
    match waiting? with
    | none => .ok o
    | some option => .error (.usage (.missingValue option))
  | argument :: arguments =>
    match argument.toList, waiting? with
    | '-' :: _ :: _, some option => .error (.usage (.missingValue option))
    | ['-', '-'], none => arguments.foldlM addInput o
    | '-' :: '-' :: cs, none =>
      match o.long cs with
      | .ok (o, waiting?) => o.readFrom waiting? arguments
      | .error stop => .error stop
    | '-' :: c :: cs, none =>
      match o.cluster (c :: cs) with
      | .ok (o, waiting?) => o.readFrom waiting? arguments
      | .error stop => .error stop
    | _, some option =>
      match o.set option argument with
      | .ok o => o.readFrom none arguments
      | .error stop => .error stop
    | _, none =>
      match o.addInput argument with
      | .ok o => o.readFrom none arguments
      | .error stop => .error stop

end Options

/-- The environment: the values of variables. -/
abbrev Environment : Type := List (String × String)

namespace Environment

def value? (env : Environment) (variableName : String) : Option String := env.lookup variableName

/-- The truth value of a variable; one that is not set is false. -/
def flag (env : Environment) (variableName : String) : Except Stop Bool :=
  match env.value? variableName with
  | none => .ok false
  | some "true" => .ok true
  | some "false" => .ok false
  | some other => .error (.usage (.invalidVariable variableName other))

/-- The path in a variable, if it is set. -/
def path? (env : Environment) (variableName : String) : Except Stop (Option String) :=
  match env.value? variableName with
  | none => .ok none
  | some "" => .error (.usage (.invalidVariable variableName ""))
  | some path => .ok (some path)

end Environment

namespace Options

/-- The options with those from the environment that the command line does not give. -/
def complete (o : Options) (env : Environment) : Except Stop Options := do
  let verbose ← if o.verbose then pure true else env.flag "VLARK_VERBOSE"
  let config? ← if o.config?.isSome then pure o.config? else env.path? "VLARK_CONFIG"
  let noColor ← if o.noColor then pure true else env.flag "VLARK_NO_COLOR"
  return { o with verbose, config?, noColor }

/-- The options that a command line and an environment give. -/
def read (env : Environment) (arguments : List String) : Except Stop Options := do
  let o ← readFrom {} none arguments
  o.complete env

end Options

end VhdlFrontEnd.Command
