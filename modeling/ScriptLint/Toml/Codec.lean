import ScriptLint.Codec
import ScriptLint.Decimal.Layout
import ScriptLint.Toml.Quoting
import ScriptLint.Toml.Reading

/-!
TOML as a notation of records.

* `Toml.recordReader`: how values of a document are taken apart.
* `Toml.write`: the document of a record, whose parts have headers of their own.
* `Toml.codec`: TOML with empty lines between the parts of a document.
-/

namespace ScriptLint.Toml

/-! ### Reading -/

/-- The fields of a record by their names. A record is a table, in which other
members do not matter, or an array of the fields in their order, in which further
items do not matter. A date is a record without any of the fields. -/
def fields? (names : List String) : Toml → Option (String → Option Toml)
  | table _ members => some fun name => members.lookup name
  | array items => some fun name => (names.zip items).lookup name
  | tables items => some fun name => (names.zip items).lookup name
  | date => some fun _ => none
  | _ => none

/-- The items of an array. -/
def toItems? : Toml → Option (List Toml)
  | array items => some items
  | tables items => some items
  | _ => none

/-- A float; an integer stands for the float nearest to it. -/
def toFloat? : Toml → Option Float
  | float value => some value
  | integer value => some (Decimal.Digits.toFloat (value < 0) ⟨value.natAbs, 0⟩)
  | _ => none

/-- An integer that is not negative. -/
def toWord? : Toml → Option Nat
  | integer value => if 0 ≤ value then some value.toNat else none
  | _ => none

/-- A truth value. -/
def toBool? : Toml → Option Bool
  | bool value => some value
  | _ => none

/-- A string. -/
def toString? : Toml → Option String
  | string value => some value
  | _ => none

/-- Nothing but a name: an empty table or array. -/
def isUnit : Toml → Bool
  | table _ members => members.isEmpty
  | array items => items.isEmpty
  | _ => false

/-- A name: a string, or a table whose only member has the name and is empty. -/
def tag? : Toml → Option String
  | string name => some name
  | table _ [(name, value)] => if value.isUnit then some name else none
  | _ => none

/-- Values of TOML. -/
def recordReader : RecordReader Toml where
  fields? := fields?
  items? := toItems?
  float? := toFloat?
  word? := toWord?
  bool? := toBool?
  string? := toString?
  tag? := tag?

/-! ### Writing values -/

/-- Floats have all their digits, and whole ones end with `.0`. -/
def floatStyle : Decimal.Style where
  tie := .up
  keepsPoint := true
  nan := "nan"
  infinity := "inf"
  signsInfinity := true

/-- A float as text. -/
def writeFloat (x : Float) : List Char :=
  (floatStyle.write x).toList

/-- A truth value as text. -/
def writeBool (value : Bool) : List Char :=
  (if value then "true" else "false").toList

/-- An array as text, given the texts of its items. Two items and more stand on lines
of their own. -/
def writeArray : List (List Char) → List Char
  | [] => ['[', ']']
  | [item] => '[' :: item ++ [']']
  | items =>
    '[' :: '\n' :: items.flatMap (fun item => "    ".toList ++ item ++ [',', '\n']) ++ [']']

/-- A key and its value. The names of fields need no quotes. -/
def writePair (key : String) (value : List Char) : List Char :=
  key.toList ++ " = ".toList ++ value

mutual

/-- A value as text behind its key. A record stands between braces. -/
def writeValue : Datum → List Char
  | .bool value => writeBool value
  | .word value => Nat.toDigits 10 value
  | .float value => writeFloat value
  | .string value => writeString value
  | .tag name => writeString name
  | .array items => writeArray (writeItems items)
  | .record members =>
    '\x7b' :: ' ' :: [',', ' '].intercalate (writePairs members) ++ [' ', '\x7d']

/-- Items as texts. -/
def writeItems : List Datum → List (List Char)
  | [] => []
  | item :: rest => writeValue item :: writeItems rest

/-- Fields as texts. -/
def writePairs : List (String × Datum) → List (List Char)
  | [] => []
  | (name, value) :: rest => writePair name (writeValue value) :: writePairs rest

end

/-! ### Writing documents -/

/-- The line of a key and its value. -/
def keyLine (key : String) (value : List Char) : List Char :=
  writePair key value ++ ['\n']

/-- A header and the lines under it. -/
def part (name : String) (lines : List (List Char)) : List Char :=
  '[' :: name.toList ++ [']', '\n'] ++ lines.flatten

/-- The lines of the fields of a record, but for those that are records. -/
def ownLines : List (String × Datum) → List (List Char)
  | [] => []
  | (_, .record _) :: rest => ownLines rest
  | (name, value) :: rest => keyLine name (writeValue value) :: ownLines rest

mutual

/-- The parts of a record under a header of this name: its own lines, and then the parts
of the records in it. -/
def parts (name : String) : Datum → List (List Char)
  | .record members => part name (ownLines members) :: innerParts (name ++ ".") members
  | _ => []

/-- The parts of the records among fields, whose headers start so. -/
def innerParts (start : String) : List (String × Datum) → List (List Char)
  | [] => []
  | (name, value) :: rest => parts (start ++ name) value ++ innerParts start rest

end

/-- The document of a record: its own lines, and then its parts, with empty lines
between them. No other value is a document. -/
def write : Datum → String
  | .record members =>
    let lines := (ownLines members).flatten
    String.ofList
      (['\n'].intercalate ((if lines.isEmpty then [] else [lines]) ++ innerParts "" members))
  | _ => ""

/-- TOML with empty lines between the parts of a document. -/
def codec : Codec where
  Value := Toml
  parse? := parse?
  reader := recordReader
  write := write

end ScriptLint.Toml
