import ScriptLint.Analysis
import ScriptLint.Command.Arguments
import ScriptLint.Command.Files
import ScriptLint.Report.Json
import ScriptLint.Settings.Document

/-!
Running a command.

* `Surroundings`: what a command can see, files, standard input and a variable.
* `RunError`: why a command fails.
* `loadPreferences`, `Surroundings.save`: preferences in a file.
* `resolve`: the preferences in force.
* `checkFiles`: the reports on scripts, one after the other.
* `Invocation.runWith`: what a command prints, how it ends, and its log, in any
  notations for preferences and reports. Nothing is printed by a command that fails.
* `Invocation.run`: the same in TOML and JSON.
-/

namespace ScriptLint

/-- What a command can see. -/
structure Surroundings where
  /-- The bytes of the file at a path. -/
  file : String → Except ReadError ByteArray
  /-- All bytes of the standard input. -/
  input : ByteArray
  /-- The path of a configuration, if the variable for it is set. -/
  configVariable? : Option String

/-! ### Failures -/

/-- Why a command fails. -/
inductive RunError where
  | configUnreadable (path : String) (cause : ReadError)
  | configMalformed (path : String)
  | configUnusable (path : String) (violation : SettingsError)
  | settingsRejected (violation : SettingsError)
  | inputUnreadable (cause : ReadError)
  | scriptUnreadable (path : String) (cause : ReadError)

/-- The failure in words. -/
def RunError.message : RunError → String
  | configUnreadable path cause =>
    "failed to read config file " ++ path ++ ": " ++ cause.message
  | configMalformed path => "invalid config file " ++ path
  | configUnusable path violation =>
    "invalid analyzer settings in " ++ path ++ ": " ++ violation.message
  | settingsRejected violation =>
    "invalid analyzer configuration: " ++ violation.message
  | inputUnreadable cause => "failed to read script from stdin: " ++ cause.message
  | scriptUnreadable path cause =>
    "failed to read script " ++ path ++ ": " ++ cause.message

/-! ### Preferences -/

/-- The preferences of a document, named by its path. -/
def preferencesIn (toml : Codec) (path document : String) : Except RunError Preferences :=
  match Preferences.ofDocument toml document with
  | .ok preferences => .ok preferences
  | .error .malformed => .error (.configMalformed path)
  | .error (.unusable violation) => .error (.configUnusable path violation)

/-- The preferences of a TOML document, named by its path. -/
def preferencesOf (path document : String) : Except RunError Preferences :=
  preferencesIn Toml.codec path document

/-- The preferences in the file at a path. -/
def loadPreferences (toml : Codec) (surroundings : Surroundings) (path : String) :
    Except RunError Preferences :=
  match (surroundings.file path).bind decodeText with
  | .error cause => .error (.configUnreadable path cause)
  | .ok document => preferencesIn toml path document

/-- The preferences in force: those of the given file, else those of the file that
the variable names, else the standard ones. -/
def resolve (toml : Codec) (surroundings : Surroundings) (config? : Option String) :
    Except RunError Preferences :=
  match config? <|> surroundings.configVariable? with
  | some path => loadPreferences toml surroundings path
  | none => .ok Preferences.standard

/-! ### Checking scripts -/

/-- The report on one script. -/
structure FileReport where
  /-- The name under which the script is shown. -/
  file : String
  verdict : Verdict

namespace FileReport

/-- The script passes: it is valid, and has no warnings if they are denied. -/
def passes (denyWarnings : Bool) (report : FileReport) : Bool :=
  report.verdict.isValid && !(denyWarnings && report.verdict.hasWarnings)

/-- The report as a record. -/
def datum (report : FileReport) : Datum :=
  .record [("file", .string report.file), ("verdict", report.verdict.datum)]

end FileReport

/-- The name under which a script is shown. -/
def shownName (path : String) : String :=
  if isStandardInput path then "<stdin>" else path

/-- The text of a script. The standard input is empty once it has been read. -/
def scriptText (surroundings : Surroundings) (inputTaken : Bool) (path : String) :
    Except RunError String :=
  if isStandardInput path then
    if inputTaken then .ok ""
    else
      match decodeText surroundings.input with
      | .ok text => .ok text
      | .error cause => .error (.inputUnreadable cause)
  else
    match (surroundings.file path).bind decodeText with
    | .ok text => .ok text
    | .error cause => .error (.scriptUnreadable path cause)

/-- The reports on scripts in order, or the first failure, with the events up to
there. -/
def checkFiles (analyzer : Analyzer) (surroundings : Surroundings) :
    Bool → List String → List Event × Except RunError (List FileReport)
  | _, [] => ([], .ok [])
  | inputTaken, path :: rest =>
    match scriptText surroundings inputTaken path with
    | .error e => ([], .error e)
    | .ok text =>
      let analysis := analyzer.run text
      let verdict := analysis.verdict
      let (events, reports) :=
        checkFiles analyzer surroundings (inputTaken || isStandardInput path) rest
      (analysis.events ++
          .checked path verdict.isValid verdict.errors.length verdict.warnings.length ::
            events,
        reports.map (⟨shownName path, verdict⟩ :: ·))

/-- The reports in a format. -/
def renderReports (json : Codec) (reports : List FileReport) : ReportFormat → String
  | .text => String.join (reports.map fun report => report.verdict.text report.file)
  | .json => json.write (.array (reports.map FileReport.datum))

/-- The output with its last line ended. -/
def endLine (output : String) : String :=
  if output.endsWith '\n' then output else output ++ "\n"

/-! ### Outcomes -/

/-- How a command ends. -/
inductive Ending where
  /-- Every script passes. -/
  | passed
  /-- A script does not pass. -/
  | rejected
  | failed (error : RunError)

/-- The exit code of a command. -/
def Ending.exitCode : Ending → Nat
  | passed => 0
  | rejected => 1
  | failed _ => 2

/-- What a command prints, how it ends, and its log. -/
structure Outcome where
  output : String
  ending : Ending
  events : List Event

namespace Outcome

/-- A command that fails. -/
def failure (error : RunError) (events : List Event) : Outcome :=
  ⟨"", .failed error, events⟩

/-- What is told of a failure. -/
def errorText? (outcome : Outcome) : Option String :=
  match outcome.ending with
  | .failed error => some ("error: " ++ error.message)
  | _ => none

end Outcome

/-- The name of a format in the log. -/
def ReportFormat.logName : ReportFormat → String
  | text => "Text"
  | json => "Json"

/-- Check scripts. A format that is given wins over the preferred one; warnings are
denied if either the command or the preferences say so. -/
def runCheck (json : Codec) (surroundings : Surroundings) (preferences : Preferences)
    (files : List String) (format? : Option ReportFormat) (denyWarnings : Bool) :
    Outcome :=
  match Analyzer.ofSettings preferences.settings with
  | .error violation => .failure (.settingsRejected violation) []
  | .ok analyzer =>
    let format := format?.getD preferences.output.format
    let deny := denyWarnings || preferences.output.denyWarnings
    let start := Event.checking format.logName deny files.length
    let (events, reports) := checkFiles analyzer surroundings false files
    match reports with
    | .error e => .failure e (start :: events)
    | .ok reports =>
      { output := endLine (renderReports json reports format)
        ending := if reports.all (FileReport.passes deny) then .passed else .rejected
        events := start :: events }

/-- The lines that list the built-in names, the fixed ones first. -/
def builtinLines (settings : Settings) : List String :=
  Builtin.names ++ settings.extraBuiltins.map (· ++ " (configured)")

namespace Invocation

/-- Run a command, with these notations for preferences and for reports. The
preferences are resolved before anything else is read. -/
def runWith (toml json : Codec) (invocation : Invocation) (surroundings : Surroundings) :
    Outcome :=
  match resolve toml surroundings invocation.config? with
  | .error e => .failure e []
  | .ok preferences =>
    match invocation.command with
    | .check files format? denyWarnings =>
      runCheck json surroundings preferences files format? denyWarnings
    | .builtins =>
      { output := String.join ((builtinLines preferences.settings).map (· ++ "\n"))
        ending := .passed
        events := [] }

/-- Run a command. -/
def run (invocation : Invocation) (surroundings : Surroundings) : Outcome :=
  invocation.runWith Toml.codec Json.codec surroundings

end Invocation

end ScriptLint
