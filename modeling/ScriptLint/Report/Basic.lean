import ScriptLint.Report.Record

/-!
Reports on scripts.

* `ReportFormat`: text or JSON.
* `Verdict.lines`, `Verdict.text`: the report for a reader, line by line.
* `Verdict.reportIn`: the report in either format.
-/

namespace ScriptLint

/-- How reports are written. -/
inductive ReportFormat where
  | text | json
deriving DecidableEq, Repr

namespace ReportFormat

/-- The name of a format. -/
def display : ReportFormat → String
  | text => "text"
  | json => "json"

/-- The format of a name. -/
def ofName? (name : String) : Option ReportFormat :=
  [text, json].find? fun format => format.display == name

end ReportFormat

/-- A number with the noun for it, in the plural unless the number is one. -/
def counted (n : Nat) (noun : String) : String :=
  toString n ++ " " ++ noun ++ (if n = 1 then "" else "s")

namespace Verdict

/-- The first line of a report: validity and the numbers of issues. -/
def headline (verdict : Verdict) (name : String) : String :=
  name ++ ": " ++ (if verdict.isValid then "valid" else "invalid") ++ " (" ++
    counted verdict.errors.length "error" ++ ", " ++
    counted verdict.warnings.length "warning" ++ ")"

/-- The last line of a report: the metrics with one place. -/
def costLine (metrics : Metrics Float) : String :=
  "  cost: complexity " ++ Decimal.fixed 1 metrics.complexity ++ ", execution time " ++
    Decimal.fixed 1 metrics.time ++ ", memory " ++ Decimal.fixed 1 metrics.memory

/-- The line of a report for an issue. -/
def issueLine (name : String) (issue : Issue) : String :=
  "  " ++ name ++ ":" ++ issue.display

/-- The report on a script of this name, line by line. -/
def lines (verdict : Verdict) (name : String) : List String :=
  verdict.headline name :: verdict.issues.map (issueLine name) ++
    verdict.suggestions.map ("  suggestion: " ++ ·) ++ [costLine verdict.performance]

/-- The report for a reader; each line is ended. -/
def text (verdict : Verdict) (name : String) : String :=
  String.join ((verdict.lines name).map (· ++ "\n"))

/-- The report on a script of this name in a format, given the notation of records. The
record does not hold the name. -/
def reportIn (json : Codec) (verdict : Verdict) (name : String) : ReportFormat → String
  | .text => verdict.text name
  | .json => json.write verdict.datum

end Verdict

end ScriptLint
