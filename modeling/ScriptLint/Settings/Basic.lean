import ScriptLint.Builtin
import ScriptLint.Cost
import ScriptLint.Decimal.Layout
import ScriptLint.Verdict

/-!
The settings of an analysis.

* `Settings`: thresholds, extra built-in names, comment markers and weights.
* `Settings.violation?`: the first rule that settings break, if any.
* `SettingsError.message`: the rule in words.
-/

namespace ScriptLint

/-- The settings of an analysis. -/
structure Settings where
  complexityThreshold : Float
  timeThreshold : Float
  extraBuiltins : List String
  lineComment : String
  blockOpen : String
  blockClose : String
  weights : Weights Float

/-! ### Rules -/

/-- A rule that settings break. -/
inductive SettingsError where
  | threshold (name : String) (value : Float)
  | weight (weight : Weight) (value : Float)
  | builtin (name : String)
  | emptyMarker (name : String)
deriving DecidableEq

/-- Numbers in messages have all their digits and no needless point. -/
def plainNumber : Decimal.Style where
  tie := .up
  keepsPoint := false
  nan := "NaN"
  infinity := "inf"
  signsInfinity := true

namespace SettingsError

/-- The rule for numbers, told of one that breaks it. -/
def numberRule (what name : String) (value : Float) : String :=
  what ++ " '" ++ name ++ "' must be a finite, non-negative number (got " ++
    plainNumber.write value ++ ")"

/-- The rule in words. -/
def message : SettingsError → String
  | threshold name value => numberRule "threshold" name value
  | weight which value => numberRule "cost weight" which.key value
  | builtin name => "extra built-in '" ++ name ++ "' is not a valid identifier"
  | emptyMarker name => "comment marker '" ++ name ++ "' must not be empty"

end SettingsError

/-- A threshold or weight is finite and not below zero. -/
def isUsableNumber (x : Float) : Bool :=
  x.isFinite && 0 ≤ x

namespace Settings

/-- The settings that hold where nothing else is said. -/
def standard : Settings where
  complexityThreshold := 50
  timeThreshold := 1000
  extraBuiltins := []
  lineComment := "//"
  blockOpen := "/*"
  blockClose := "*/"
  weights := Weights.standard

/-- The comment markers. -/
def markers (settings : Settings) : Markers :=
  ⟨settings.lineComment.toList, settings.blockOpen.toList, settings.blockClose.toList⟩

/-- The built-in names. -/
def catalogue (settings : Settings) : Catalogue :=
  ⟨settings.extraBuiltins⟩

/-- The limits above which suggestions are made. -/
def thresholds (settings : Settings) : Thresholds :=
  ⟨settings.complexityThreshold, settings.timeThreshold⟩

/-- The names of the thresholds with their values. -/
def thresholdEntries (settings : Settings) : List (String × Float) :=
  [("complexity_threshold", settings.complexityThreshold),
    ("execution_time_threshold", settings.timeThreshold)]

/-- The names of the comment markers with their texts. -/
def markerEntries (settings : Settings) : List (String × String) :=
  [("line_comment", settings.lineComment), ("block_comment_open", settings.blockOpen),
    ("block_comment_close", settings.blockClose)]

/-- The weights with their values. -/
def weightEntries (settings : Settings) : List (Weight × Float) :=
  Weight.all.map fun weight => (weight, settings.weights.value weight)

/-- The rules that the settings break, in the order in which they are told:
thresholds, weights, built-in names, markers. A marker of blanks alone is empty. -/
def violations (settings : Settings) : List SettingsError :=
  (settings.thresholdEntries.filter fun (_, value) => !isUsableNumber value).map
    (fun (name, value) => .threshold name value) ++
  (settings.weightEntries.filter fun (_, value) => !isUsableNumber value).map
    (fun (weight, value) => .weight weight value) ++
  (settings.extraBuiltins.filter fun name => !Token.isValidIdentifier name.toList).map
    .builtin ++
  (settings.markerEntries.filter fun (_, text) => (Text.trim text.toList).isEmpty).map
    fun (name, _) => .emptyMarker name

/-- The first rule that the settings break. -/
def violation? (settings : Settings) : Option SettingsError :=
  settings.violations.head?

end Settings

end ScriptLint
