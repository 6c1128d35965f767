import ScriptLint.Json.Codec
import ScriptLint.Settings.Record
import ScriptLint.Toml.Codec

/-!
Preferences as documents.

* `DocumentError`: why a document gives no preferences.
* `Preferences.ofDocument`: the preferences of a document in some notation.
* `Preferences.document`: the document that is saved for preferences.
* `Settings.ofText?`: settings from JSON.
-/

namespace ScriptLint

/-- Why a document gives no preferences. -/
inductive DocumentError where
  /-- It is no document of the notation, or a field has a value of the wrong kind. -/
  | malformed
  /-- The settings in it break a rule. -/
  | unusable (violation : SettingsError)

namespace Preferences

/-- The preferences of a document. Their settings break no rule. -/
def ofDocument (toml : Codec) (document : String) : Except DocumentError Preferences :=
  match toml.decode? read? document with
  | none => .error .malformed
  | some preferences =>
    match preferences.settings.violation? with
    | some violation => .error (.unusable violation)
    | none => .ok preferences

/-- The document that is saved for preferences: every field, in three parts with
empty lines between them. -/
def document (preferences : Preferences) : String :=
  Toml.codec.write preferences.datum

/-- Two preferences agree in every field. Numbers are compared as numbers: the two
zeros are equal, and what is not a number equals nothing. -/
def agree (a b : Preferences) : Bool :=
  a.settings.complexityThreshold == b.settings.complexityThreshold &&
    a.settings.timeThreshold == b.settings.timeThreshold &&
    a.settings.extraBuiltins == b.settings.extraBuiltins &&
    a.settings.lineComment == b.settings.lineComment &&
    a.settings.blockOpen == b.settings.blockOpen &&
    a.settings.blockClose == b.settings.blockClose &&
    (Weight.all.all fun w => a.settings.weights.value w == b.settings.weights.value w) &&
    a.output == b.output

end Preferences

/-- Settings from the text of a JSON record. -/
def Settings.ofText? (text : String) : Option Settings :=
  Json.codec.decode? read? text

end ScriptLint
