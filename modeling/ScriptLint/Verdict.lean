import ScriptLint.Cost
import ScriptLint.Decimal.Layout
import ScriptLint.Issue

/-!
The outcome of an analysis.

* `Verdict`: validity, errors, warnings, suggestions and metrics.
* `Verdict.ofIssues`: errors and warnings are kept apart, each in order; a script
  is valid when there is no error.
* `Thresholds.suggestions`: what to say about a script that costs too much.
-/

namespace ScriptLint

/-! ### Suggestions -/

/-- The limits above which a script counts as costly. -/
structure Thresholds where
  complexity : Float
  time : Float
deriving Repr

/-- Two costs in a sentence, the measured one and its limit. -/
def overLimit (what : String) (measured limit : Float) (advice : String) : String :=
  what ++ " is high (" ++ Decimal.fixed 1 measured ++ " > " ++ Decimal.fixed 1 limit ++
    "); consider " ++ advice

/-- The suggestions for a script with these metrics: one for each metric that is
greater than its limit. -/
def Thresholds.suggestions (limits : Thresholds) (metrics : Metrics Float) :
    List String :=
  (if limits.complexity < metrics.complexity then
    [overLimit "Script complexity" metrics.complexity limits.complexity
      "splitting the logic into smaller functions"]
  else []) ++
  (if limits.time < metrics.time then
    [overLimit "Estimated execution time" metrics.time limits.time
      "optimizing loops and repeated calculations"]
  else [])

/-! ### Verdicts -/

/-- The outcome of an analysis. -/
structure Verdict where
  isValid : Bool
  errors : List Issue
  warnings : List Issue
  suggestions : List String
  performance : Metrics Float
deriving Repr

namespace Verdict

/-- The verdict on a script with these issues. -/
def ofIssues (issues : List Issue) (suggestions : List String)
    (performance : Metrics Float) : Verdict where
  isValid := (issues.filter Issue.isError).isEmpty
  errors := issues.filter Issue.isError
  warnings := issues.filter fun issue => !issue.isError
  suggestions := suggestions
  performance := performance

/-- There are warnings. -/
def hasWarnings (verdict : Verdict) : Bool :=
  !verdict.warnings.isEmpty

/-- All issues, the errors first. -/
def issues (verdict : Verdict) : List Issue :=
  verdict.errors ++ verdict.warnings

end Verdict

end ScriptLint
