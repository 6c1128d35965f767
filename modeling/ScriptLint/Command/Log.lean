import ScriptLint.Decimal.Layout
import ScriptLint.Event
import ScriptLint.Settings.Basic

/-!
The log as text.

* `LogValue.display`, `Entry.line`: a value and an entry on one line.
* `logLines`: the lines that are shown. Without more detail asked for there are
  none; with it, all but those of the finest level.
-/

namespace ScriptLint

/-- A value of the log as text. -/
def LogValue.display : LogValue → String
  | text value => value
  | count value => toString value
  | number value => plainNumber.write value
  | flag value => toString value

/-- An entry on one line: its level, the span that it begins, and its values. -/
def Entry.line (entry : Entry) : String :=
  " ".intercalate
    (entry.level.display :: entry.span?.toList ++
      entry.fields.map fun (name, value) => name ++ "=" ++ value.display)

/-- The lines of the log that are shown. -/
def logLines (verbose : Bool) (events : List Event) : List String :=
  if verbose then
    ((events.map Event.entry).filter (·.level != .trace)).map Entry.line
  else
    []

end ScriptLint
