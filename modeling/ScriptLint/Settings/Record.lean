import ScriptLint.Report.Basic
import ScriptLint.Settings.Basic

/-!
Settings as records.

* `Preferences`: the settings of an analysis with the options for its output.
* `Settings.datum`, `Preferences.datum`: both as they are handed over for writing.
* `Settings.read?`, `Preferences.read?`: both from a record. A field that is missing
  has its standard value, a field that is not known does not matter.
-/

namespace ScriptLint

/-! ### Settings -/

/-- The fields of weights. -/
def Weights.fields : List String :=
  Weight.all.map Weight.key

/-- Weights as a record. -/
def Weights.datum (weights : Weights Float) : Datum :=
  .record (Weight.all.map fun weight => (weight.key, .float (weights.value weight)))

/-- Replace the weights that a record gives, one after the other. -/
def Weights.readFields? {V : Type} (reader : RecordReader V)
    (field : String → Option V) (weights : Weights Float) :
    List Weight → Option (Weights Float)
  | [] => some weights
  | weight :: rest => do
    let value ← Field.optional reader.float? (weights.value weight) (field weight.key)
    readFields? reader field (weights.set weight value) rest

/-- The weights of a record; those it does not give are the standard ones. -/
def Weights.read? {V : Type} (reader : RecordReader V) (record : V) :
    Option (Weights Float) := do
  let field ← reader.fields? Weights.fields record
  readFields? reader field Weights.standard Weight.all

namespace Settings

/-- The fields of settings. -/
def fields : List String :=
  ["complexity_threshold", "execution_time_threshold", "extra_builtins",
    "line_comment", "block_comment_open", "block_comment_close", "weights"]

/-- Settings as a record. -/
def datum (settings : Settings) : Datum :=
  .record
    [("complexity_threshold", .float settings.complexityThreshold),
      ("execution_time_threshold", .float settings.timeThreshold),
      ("extra_builtins", .array (settings.extraBuiltins.map .string)),
      ("line_comment", .string settings.lineComment),
      ("block_comment_open", .string settings.blockOpen),
      ("block_comment_close", .string settings.blockClose),
      ("weights", settings.weights.datum)]

/-- The settings of a record. -/
def read? {V : Type} (reader : RecordReader V) (record : V) : Option Settings := do
  let field ← reader.fields? fields record
  let complexityThreshold ← Field.optional reader.float? standard.complexityThreshold
    (field "complexity_threshold")
  let timeThreshold ← Field.optional reader.float? standard.timeThreshold
    (field "execution_time_threshold")
  let extraBuiltins ← Field.optional (reader.list? reader.string?)
    standard.extraBuiltins (field "extra_builtins")
  let lineComment ← Field.optional reader.string? standard.lineComment
    (field "line_comment")
  let blockOpen ← Field.optional reader.string? standard.blockOpen
    (field "block_comment_open")
  let blockClose ← Field.optional reader.string? standard.blockClose
    (field "block_comment_close")
  let weights ← Field.optional (Weights.read? reader) standard.weights (field "weights")
  some
    { complexityThreshold, timeThreshold, extraBuiltins, lineComment, blockOpen,
      blockClose, weights }

end Settings

/-! ### Preferences -/

/-- How the outcome of a check is shown and judged. -/
structure OutputOptions where
  format : ReportFormat
  /-- A script with warnings does not pass. -/
  denyWarnings : Bool
deriving DecidableEq, Repr

namespace OutputOptions

/-- Text, and warnings are let pass. -/
def standard : OutputOptions := ⟨.text, false⟩

/-- The fields of output options. -/
def fields : List String :=
  ["format", "deny_warnings"]

/-- Output options as a record. -/
def datum (output : OutputOptions) : Datum :=
  .record
    [("format", .tag output.format.display), ("deny_warnings", .bool output.denyWarnings)]

/-- The output options of a record. -/
def read? {V : Type} (reader : RecordReader V) (record : V) : Option OutputOptions := do
  let field ← reader.fields? fields record
  let format ← Field.optional (fun v => (reader.tag? v).bind ReportFormat.ofName?)
    standard.format (field "format")
  let denyWarnings ← Field.optional reader.bool? standard.denyWarnings
    (field "deny_warnings")
  some ⟨format, denyWarnings⟩

end OutputOptions

/-- The settings of an analysis and the options for its output. -/
structure Preferences where
  settings : Settings
  output : OutputOptions

namespace Preferences

/-- What holds where nothing else is said. -/
def standard : Preferences := ⟨Settings.standard, OutputOptions.standard⟩

/-- The fields of preferences. -/
def fields : List String :=
  ["analyzer", "output"]

/-- Preferences as a record. -/
def datum (preferences : Preferences) : Datum :=
  .record
    [("analyzer", preferences.settings.datum), ("output", preferences.output.datum)]

/-- The preferences of a record. -/
def read? {V : Type} (reader : RecordReader V) (record : V) : Option Preferences := do
  let field ← reader.fields? fields record
  let settings ← Field.optional (Settings.read? reader) Settings.standard
    (field "analyzer")
  let output ← Field.optional (OutputOptions.read? reader) OutputOptions.standard
    (field "output")
  some ⟨settings, output⟩

end Preferences

end ScriptLint
