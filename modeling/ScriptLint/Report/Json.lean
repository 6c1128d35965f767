import ScriptLint.Json.Codec
import ScriptLint.Report.Basic

/-!
Reports in JSON.

* `Verdict.toJson`, `Issue.toJson`, `metricsJson`: a verdict, an issue and metrics as
  JSON values.
* `Verdict.ofText?`: a verdict from the text of its record.
* `Verdict.report`: the report in either format.
-/

namespace ScriptLint

/-- Metrics as a JSON value. -/
def metricsJson (metrics : Metrics Float) : Json :=
  .ofDatum metrics.datum

theorem metricsJson_eq (metrics : Metrics Float) :
    metricsJson metrics = .object
      [("complexity", .ofFloat metrics.complexity),
        ("estimatedExecutionTime", .ofFloat metrics.time),
        ("estimatedMemoryUsage", .ofFloat metrics.memory)] := rfl

/-- An issue as a JSON value. -/
def Issue.toJson (issue : Issue) : Json :=
  .ofDatum issue.datum

namespace Verdict

/-- A verdict as a JSON value. -/
def toJson (verdict : Verdict) : Json :=
  .ofDatum verdict.datum

/-- A verdict from the text of its record. -/
def ofText? (text : String) : Option Verdict :=
  Json.codec.decode? read? text

/-- The report on a script of this name in a format. -/
def report (verdict : Verdict) (name : String) : ReportFormat → String :=
  verdict.reportIn Json.codec name

end Verdict

end ScriptLint
