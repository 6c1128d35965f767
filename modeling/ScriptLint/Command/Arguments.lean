import ScriptLint.Report.Basic

/-!
The command line.

* `Invocation`: what is asked for, a command with its options.
* `Refusal`: a command line that asks for help, for the version, or for nothing that
  can be done.
* `Word.ofText`: the form of an argument, `Flag`: the options.
* `Given.read`: the arguments behind the name of a command.
* `Invocation.parse`: a whole command line.

The options for the configuration and for more detail may stand before the name of
the command and behind it; each other option belongs to one command. An option is
given at most once on either side.
-/

namespace ScriptLint

/-! ### What is asked for -/

/-- A command. -/
inductive Command where
  /-- Check scripts. -/
  | check (files : List String) (format? : Option ReportFormat) (denyWarnings : Bool)
  /-- List the built-in names. -/
  | builtins
deriving DecidableEq, Repr

/-- A command with the options that every command has. -/
structure Invocation where
  config? : Option String
  verbose : Bool
  command : Command
deriving DecidableEq, Repr

/-- A command line that runs no command. -/
inductive Refusal where
  /-- Help is asked for. -/
  | help
  /-- Nothing is asked for, so help is shown. -/
  | nothingAsked
  | version
  /-- The arguments make no sense. -/
  | usage
deriving DecidableEq, Repr

/-- The exit code of a command line that runs no command. -/
def Refusal.exitCode : Refusal → Nat
  | help | version => 0
  | nothingAsked | usage => 2

/-! ### Words -/

/-- The form of an argument. -/
inductive Word where
  /-- Two minus signs: no options follow. -/
  | optionsEnd
  /-- An option by its name, perhaps with a value behind an equals sign. -/
  | long (name : String) (value? : Option String)
  /-- Options by their letters, perhaps with a value behind the last of them. -/
  | short (letters : List Char)
  /-- Anything else. A single minus sign is of this form too. -/
  | plain (text : String)
deriving DecidableEq, Repr

/-- The form of an argument. -/
def Word.ofText (text : String) : Word :=
  match text.toList with
  | ['-', '-'] => optionsEnd
  | '-' :: '-' :: rest =>
    let name := rest.takeWhile (· != '=')
    match rest.drop name.length with
    | [] => long (String.ofList name) none
    | _ :: value => long (String.ofList name) (some (String.ofList value))
  | '-' :: c :: rest => short (c :: rest)
  | _ => plain text

/-! ### Options -/

/-- The options. -/
inductive Flag where
  | config | verbose | help | version | format | denyWarnings
deriving DecidableEq, Repr

namespace Flag

/-- The name of an option. -/
def name : Flag → String
  | config => "config"
  | verbose => "verbose"
  | help => "help"
  | version => "version"
  | format => "format"
  | denyWarnings => "deny-warnings"

/-- The letter of an option. -/
def letter? : Flag → Option Char
  | verbose => some 'v'
  | help => some 'h'
  | version => some 'V'
  | format => some 'f'
  | config | denyWarnings => none

/-- The option has a value. -/
def takesValue : Flag → Bool
  | config | format => true
  | _ => false

end Flag

/-- The options before the name of a command. -/
def topFlags : List Flag := [.config, .verbose, .help, .version]

/-- The options of the command that checks scripts. -/
def checkFlags : List Flag := [.config, .verbose, .help, .format, .denyWarnings]

/-- The options of the command that lists the built-in names. -/
def builtinsFlags : List Flag := [.config, .verbose, .help]

/-! ### Arguments of one command -/

/-- The options and files given so far. -/
structure Given where
  config? : Option String
  verbose : Bool
  format? : Option ReportFormat
  denyWarnings : Bool
  files : List String
deriving DecidableEq, Repr

namespace Given

/-- Nothing is given. -/
def nothing : Given := ⟨none, false, none, false, []⟩

/-- Give an option that has no value. -/
def giveFlag (given : Given) : Flag → Except Refusal Given
  | .help => .error .help
  | .version => .error .version
  | .verbose => if given.verbose then .error .usage else .ok { given with verbose := true }
  | .denyWarnings =>
    if given.denyWarnings then .error .usage else .ok { given with denyWarnings := true }
  | .config | .format => .error .usage

/-- Give an option with its value. -/
def giveValue (given : Given) (flag : Flag) (value : String) : Except Refusal Given :=
  match flag with
  | .config =>
    if value.isEmpty || given.config?.isSome then .error .usage
    else .ok { given with config? := some value }
  | .format =>
    match given.format?, ReportFormat.ofName? value with
    | none, some format => .ok { given with format? := some format }
    | _, _ => .error .usage
  | _ => .error .usage

/-- Give an option by its name. The answer tells the option that still waits for its
value, if there is one. -/
def giveLong (flags : List Flag) (given : Given) (name : String)
    (value? : Option String) : Except Refusal (Given × Option Flag) := do
  let some flag := flags.find? (·.name == name) | .error .usage
  match flag.takesValue, value? with
  | true, some value => do
    let given ← given.giveValue flag value
    .ok (given, none)
  | true, none => .ok (given, some flag)
  | false, some _ => .error .usage
  | false, none => do
    let given ← given.giveFlag flag
    .ok (given, none)

/-- The value behind the letter of an option, without an equals sign before it. -/
def attachedValue : List Char → String
  | '=' :: rest => String.ofList rest
  | text => String.ofList text

/-- Give options by their letters. What follows the letter of an option with a value
is the value. -/
def giveShort (flags : List Flag) (given : Given) :
    List Char → Except Refusal (Given × Option Flag)
  | [] => .ok (given, none)
  | c :: rest => do
    let some flag := flags.find? (·.letter? == some c) | .error .usage
    if flag.takesValue then
      if rest.isEmpty then
        .ok (given, some flag)
      else
        let given ← given.giveValue flag (attachedValue rest)
        .ok (given, none)
    else
      let given ← given.giveFlag flag
      giveShort flags given rest

/-- Give a file, where files are allowed. Its path is not empty. -/
def giveFile (takesFiles : Bool) (given : Given) (path : String) :
    Except Refusal Given :=
  if takesFiles && !path.isEmpty then .ok { given with files := given.files ++ [path] }
  else .error .usage

/-- The arguments of a command, of which an option may wait for its value. -/
def read (flags : List Flag) (takesFiles : Bool) :
    Option Flag → Given → List String → Except Refusal Given
  | none, given, [] => .ok given
  | some _, _, [] => .error .usage
  | some flag, given, word :: rest =>
    match Word.ofText word with
    | .plain value => do
      let given ← given.giveValue flag value
      read flags takesFiles none given rest
    | _ => .error .usage
  | none, given, word :: rest =>
    match Word.ofText word with
    | .optionsEnd => rest.foldlM (giveFile takesFiles) given
    | .long name value? => do
      let (given, waiting?) ← giveLong flags given name value?
      read flags takesFiles waiting? given rest
    | .short letters => do
      let (given, waiting?) ← giveShort flags given letters
      read flags takesFiles waiting? given rest
    | .plain path => do
      let given ← given.giveFile takesFiles path
      read flags takesFiles none given rest

end Given

/-! ### Commands -/

/-- The names of the commands, with the one that gives help. -/
def commandNames : List String := ["check", "builtins", "help"]

/-- The answer to the command that gives help: it takes the name of one command. -/
def helpOn : List String → Refusal
  | [] => .help
  | [name] => if commandNames.contains name then .help else .usage
  | _ => .usage

/-- The command of a name with its arguments, and the options that every command has
as they are given among the arguments. -/
def readCommand (name : String) (arguments : List String) :
    Except Refusal (Command × Given) :=
  if name == "check" then do
    let given ← Given.read checkFlags true none Given.nothing arguments
    if given.files.isEmpty then .error .usage
    else .ok (.check given.files given.format? given.denyWarnings, given)
  else if name == "builtins" then do
    let given ← Given.read builtinsFlags false none Given.nothing arguments
    .ok (.builtins, given)
  else if name == "help" then
    .error (helpOn arguments)
  else
    .error .usage

namespace Invocation

/-- The command that is read, with the options before its name. An option behind the
name wins over the same one before it. -/
def combine (top : Given) (command : Command) (given : Given) : Invocation where
  config? := given.config? <|> top.config?
  verbose := top.verbose || given.verbose
  command := command

/-- The command line behind the options `top`; `waiting` tells that the path of the
configuration comes next. A path given so is looked at only with the next option, or
when the command has been read: `faulty` tells that it will be refused then. -/
def parseFrom : Bool → Bool → Given → List String → Except Refusal Invocation
  | true, _, _, [] => .error .usage
  | true, faulty, top, word :: rest =>
    match Word.ofText word with
    | .plain path =>
      match top.giveValue .config path with
      | .ok top => parseFrom false faulty top rest
      | .error _ => parseFrom false true top rest
    | _ => .error .usage
  | false, faulty, top, [] =>
    if !faulty && top = Given.nothing then .error .nothingAsked else .error .usage
  | false, faulty, top, word :: rest =>
    match Word.ofText word with
    | .optionsEnd =>
      if rest.isEmpty && !faulty && top = Given.nothing then .error .nothingAsked
      else .error .usage
    | .long name value? =>
      if faulty then
        .error .usage
      else do
        let (top, waiting?) ← Given.giveLong topFlags top name value?
        parseFrom waiting?.isSome false top rest
    | .short letters =>
      if faulty then
        .error .usage
      else do
        let (top, waiting?) ← Given.giveShort topFlags top letters
        parseFrom waiting?.isSome false top rest
    | .plain name => do
      let (command, given) ← readCommand name rest
      if faulty then .error .usage else .ok (combine top command given)

/-- What a command line asks for. -/
def parse (arguments : List String) : Except Refusal Invocation :=
  parseFrom false false Given.nothing arguments

end Invocation

end ScriptLint
