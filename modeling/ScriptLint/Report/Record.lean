import ScriptLint.Codec
import ScriptLint.Field
import ScriptLint.Verdict

/-!
Verdicts as records.

* `Verdict.datum`, `Issue.datum`, `Metrics.datum`: a verdict, an issue and metrics as
  they are handed over for writing.
* `Verdict.read?`, `Issue.read?`, `Metrics.read?`: the records read back. What is read
  is taken as it is: validity and severities are not computed anew.
-/

namespace ScriptLint

/-! ### Metrics -/

namespace Metrics

/-- The fields of metrics. -/
def fields : List String :=
  ["complexity", "estimatedExecutionTime", "estimatedMemoryUsage"]

/-- Metrics as a record. -/
def datum (metrics : Metrics Float) : Datum :=
  .record
    [("complexity", .float metrics.complexity),
      ("estimatedExecutionTime", .float metrics.time),
      ("estimatedMemoryUsage", .float metrics.memory)]

/-- Metrics from their record. -/
def read? {V : Type} (reader : RecordReader V) (record : V) : Option (Metrics Float) := do
  let field ← reader.fields? fields record
  let complexity ← Field.required reader.float? (field "complexity")
  let time ← Field.required reader.float? (field "estimatedExecutionTime")
  let memory ← Field.required reader.float? (field "estimatedMemoryUsage")
  some ⟨complexity, time, memory⟩

end Metrics

/-! ### Issues -/

/-- The severity of a name. -/
def Severity.ofName? (name : String) : Option Severity :=
  [error, warning].find? fun severity => severity.display == name

namespace Issue

/-- The fields of an issue. -/
def fields : List String :=
  ["line", "column", "message", "severity", "code"]

/-- An issue as a record. -/
def datum (issue : Issue) : Datum :=
  .record
    [("line", .word issue.place.line), ("column", .word issue.place.column),
      ("message", .string issue.message), ("severity", .tag issue.severity.display),
      ("code", .tag issue.code.display)]

/-- An issue from its record. -/
def read? {V : Type} (reader : RecordReader V) (record : V) : Option Issue := do
  let field ← reader.fields? fields record
  let line ← Field.required reader.word? (field "line")
  let column ← Field.required reader.word? (field "column")
  let message ← Field.required reader.string? (field "message")
  let severity ← (Field.required reader.tag? (field "severity")).bind Severity.ofName?
  let code ← (Field.required reader.tag? (field "code")).bind IssueCode.ofName?
  some ⟨⟨line, column⟩, message, severity, code⟩

end Issue

/-! ### Verdicts -/

namespace Verdict

/-- The fields of a verdict. -/
def fields : List String :=
  ["isValid", "errors", "warnings", "suggestions", "performance"]

/-- A verdict as a record. -/
def datum (verdict : Verdict) : Datum :=
  .record
    [("isValid", .bool verdict.isValid),
      ("errors", .array (verdict.errors.map Issue.datum)),
      ("warnings", .array (verdict.warnings.map Issue.datum)),
      ("suggestions", .array (verdict.suggestions.map .string)),
      ("performance", verdict.performance.datum)]

/-- A verdict from its record. -/
def read? {V : Type} (reader : RecordReader V) (record : V) : Option Verdict := do
  let field ← reader.fields? fields record
  let isValid ← Field.required reader.bool? (field "isValid")
  let errors ← Field.required (reader.list? (Issue.read? reader)) (field "errors")
  let warnings ← Field.required (reader.list? (Issue.read? reader)) (field "warnings")
  let suggestions ← Field.required (reader.list? reader.string?) (field "suggestions")
  let performance ← Field.required (Metrics.read? reader) (field "performance")
  some ⟨isValid, errors, warnings, suggestions, performance⟩

end Verdict

end ScriptLint
