import ScriptLint.Codec
import ScriptLint.Json.Fields
import ScriptLint.Json.Printing
import ScriptLint.Json.Reading

/-!
JSON as a notation of records.

* `Json.ofDatum`: the value for what is handed over.
* `Json.recordReader`: how values are taken apart.
* `Json.codec`: JSON with one item to a line.
-/

namespace ScriptLint.Json

mutual

/-- The value for what is handed over. Names are strings. -/
def ofDatum : Datum → Json
  | .bool value => bool value
  | .word value => ofNat value
  | .float value => ofFloat value
  | .string value => string value
  | .tag name => string name
  | .array items => array (ofItems items)
  | .record members => object (ofFields members)

/-- The values for items. -/
def ofItems : List Datum → List Json
  | [] => []
  | item :: rest => ofDatum item :: ofItems rest

/-- The members for fields. -/
def ofFields : List (String × Datum) → List (String × Json)
  | [] => []
  | (name, value) :: rest => (name, ofDatum value) :: ofFields rest

end

/-- Values of JSON. -/
def recordReader : RecordReader Json where
  fields? := fields?
  items? := toItems?
  float? := toFloat?
  word? := toWord?
  bool? := toBool?
  string? := toString?
  tag? := tag?

/-- JSON with one item to a line. -/
def codec : Codec where
  Value := Json
  parse? := parse?
  reader := recordReader
  write value := (ofDatum value).pretty

end ScriptLint.Json
