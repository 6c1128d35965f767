/-!
Notations in which values are written and read.

* `Datum`: a value as it is handed over for writing.
* `RecordReader`: how the values of a notation are taken apart.
* `Codec`: a notation with its writer and its reader.
* `Codec.decode?`: what a text stands for.
-/

namespace ScriptLint

/-- A value as it is handed over for writing. -/
inductive Datum where
  | bool (value : Bool)
  | word (value : Nat)
  | float (value : Float)
  | string (value : String)
  /-- One of several names. -/
  | tag (name : String)
  | array (items : List Datum)
  /-- Fields with their names, in the order in which they are declared. -/
  | record (members : List (String × Datum))

/-- How the values of a notation are taken apart. -/
structure RecordReader (V : Type) where
  /-- The fields of a record by their names; a field may be missing. -/
  fields? : List String → V → Option (String → Option V)
  items? : V → Option (List V)
  float? : V → Option Float
  /-- A natural number of 64 bits. -/
  word? : V → Option Nat
  bool? : V → Option Bool
  string? : V → Option String
  /-- One of several names. -/
  tag? : V → Option String

/-- The items of an array, each taken as `item?` says. -/
def RecordReader.list? {V α : Type} (reader : RecordReader V) (item? : V → Option α)
    (value : V) : Option (List α) :=
  (reader.items? value).bind fun items => items.mapM item?

/-- A notation: the values that its reader makes of texts, and the text that its writer
makes of a value. Neither is described any further here. -/
structure Codec where
  Value : Type
  parse? : String → Option Value
  reader : RecordReader Value
  write : Datum → String

/-- What a text of the notation stands for, taken from its value by `read?`. -/
def Codec.decode? {α : Type} (codec : Codec)
    (read? : RecordReader codec.Value → codec.Value → Option α) (text : String) :
    Option α :=
  (codec.parse? text).bind (read? codec.reader)

end ScriptLint
