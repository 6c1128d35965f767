import ScriptLint.Check.Checker
import ScriptLint.Event
import ScriptLint.Settings.Basic

/-!
The analysis of a script.

* `TokenLine`: the tokens of a source line with its number.
* `overLines`: several checks over the lines of a script.
* `Analyzer`: settings that break no rule; `Analyzer.ofSettings`, `Analyzer.standard`.
* `Analyzer.run`: the verdict on a script, with the events on the way.
-/

namespace ScriptLint

/-- The tokens of a source line. -/
structure TokenLine where
  number : Nat
  tokens : List Token
deriving DecidableEq, Repr

/-- The lines of a script as tokens. -/
def TokenLine.ofSource (markers : Markers) (source : List Char) : List TokenLine :=
  (SourceLine.scan markers source).map fun line => ⟨line.number, Token.ofLine line⟩

/-- Several checks over the lines of a script. The answer has the checks as they
are at the end. -/
def overLines (catalogue : Catalogue) :
    List Checker → List TokenLine → List Checker × Notes
  | checkers, [] => (checkers, Notes.none)
  | checkers, line :: rest =>
    let (next, notes) := Checker.lineAll catalogue line.number line.tokens checkers
    let (last, later) := overLines catalogue next rest
    (last, notes.append later)

/-- The findings of each check at the end of the script. -/
def endFindings (checkers : List Checker) : List (String × List Finding) :=
  checkers.map fun checker => (checker.name, checker.finish.2)

/-- All findings on a script with these lines: those on lines, in order, then those
that need the whole script. -/
def allFindings (catalogue : Catalogue) (lines : List TokenLine) : List Finding :=
  let (checkers, notes) := overLines catalogue Checker.standard lines
  notes.findings ++ (endFindings checkers).flatMap (·.2)

/-- What an analysis yields. -/
structure Analysis where
  verdict : Verdict
  events : List Event

/-- The verdict on a script with these lines. -/
def verdictOn (settings : Settings) (lines : List TokenLine) : Verdict :=
  let performance := totalCost settings.weights (lines.map TokenLine.tokens)
  .ofIssues ((allFindings settings.catalogue lines).map Issue.ofFinding)
    (settings.thresholds.suggestions performance) performance

/-- The events of the analysis of a script with these lines, after its begin and
before its end. -/
def checkEvents (settings : Settings) (lines : List TokenLine) : List Event :=
  let (checkers, notes) := overLines settings.catalogue Checker.standard lines
  notes.steps.filterMap BlockStep.event? ++
    ((endFindings checkers).filter fun (_, findings) => !findings.isEmpty).map
      fun (check, findings) => .endFindings check findings.length

/-- Settings that break no rule. -/
structure Analyzer where
  settings : Settings
  accepted : settings.violation? = none

/-- The standard settings break no rule. -/
theorem Settings.standard_accepted : Settings.standard.violation? = none := by
  decide +kernel

namespace Analyzer

/-- The analyzer with the standard settings. -/
def standard : Analyzer := ⟨Settings.standard, Settings.standard_accepted⟩

/-- The analyzer with these settings, or the first rule that they break. -/
def ofSettings (settings : Settings) : Except SettingsError Analyzer :=
  match h : settings.violation? with
  | some violation => .error violation
  | none => .ok ⟨settings, h⟩

/-- The name is built in for this analyzer. -/
def isBuiltin (analyzer : Analyzer) (name : String) : Bool :=
  analyzer.settings.catalogue.contains name.toList

/-- The analysis of a script. It never fails: every defect is in the verdict. -/
def run (analyzer : Analyzer) (source : String) : Analysis :=
  let settings := analyzer.settings
  let lines := TokenLine.ofSource settings.markers source.toList
  let verdict := verdictOn settings lines
  { verdict
    events :=
      .began source.utf8ByteSize :: checkEvents settings lines ++
        [.analyzed lines.length verdict.errors.length verdict.warnings.length
          verdict.performance.complexity verdict.isValid] }

/-- The verdict on a script. -/
def analyze (analyzer : Analyzer) (source : String) : Verdict :=
  (analyzer.run source).verdict

end Analyzer

end ScriptLint
