import ScriptLint.Json.Value
import ScriptLint.Text.Hex

/-!
JSON values as text.

* `Json.escape`: the text of a string between its quotes.
* `Json.compact`: a value without blanks.
* `Json.pretty`: a value with one item to a line, indented by two spaces.
-/

namespace ScriptLint.Json

/-! ### Strings -/

/-- A character of a string. Quotes, backslashes and control characters are
escaped, the common ones by a letter; every other character stands for itself. -/
def escapeChar (c : Char) : List Char :=
  if c = '"' then ['\\', '"']
  else if c = '\\' then ['\\', '\\']
  else if c = '\x08' then ['\\', 'b']
  else if c = '\x0c' then ['\\', 'f']
  else if c = '\n' then ['\\', 'n']
  else if c = '\r' then ['\\', 'r']
  else if c = '\t' then ['\\', 't']
  else if c.toNat < 0x20 then '\\' :: 'u' :: Text.hexQuad c.toNat
  else [c]

/-- The text of a string between its quotes. -/
def escape (text : List Char) : List Char :=
  text.flatMap escapeChar

/-- A string in quotes. -/
def quote (text : String) : List Char :=
  '"' :: escape text.toList ++ ['"']

/-! ### Values -/

/-- A value that is neither an array nor an object. -/
def scalarText : Json → List Char
  | null => "null".toList
  | bool true => "true".toList
  | bool false => "false".toList
  | number value => value.text
  | string text => quote text
  | _ => []

/-- A new line with its indent. -/
def newLine (depth : Nat) : List Char :=
  '\n' :: List.replicate (2 * depth) ' '

mutual

/-- The text of a value with one item or member to a line. The value starts on a
line that is indented `depth` times. -/
def prettyFrom (depth : Nat) : Json → List Char
  | array [] => ['[', ']']
  | array (item :: rest) =>
    '[' :: newLine (depth + 1) ++ prettyFrom (depth + 1) item ++
      prettyItems (depth + 1) rest ++ newLine depth ++ [']']
  | object [] => ['\x7b', '\x7d']
  | object ((name, value) :: rest) =>
    '\x7b' :: newLine (depth + 1) ++ quote name ++ ':' :: ' ' ::
      prettyFrom (depth + 1) value ++ prettyMembers (depth + 1) rest ++
      newLine depth ++ ['\x7d']
  | scalar => scalarText scalar

/-- Further items, each after a comma and on its own line. -/
def prettyItems (depth : Nat) : List Json → List Char
  | [] => []
  | item :: rest =>
    ',' :: newLine depth ++ prettyFrom depth item ++ prettyItems depth rest

/-- Further members, each after a comma and on its own line. -/
def prettyMembers (depth : Nat) : List (String × Json) → List Char
  | [] => []
  | (name, value) :: rest =>
    ',' :: newLine depth ++ quote name ++ ':' :: ' ' :: prettyFrom depth value ++
      prettyMembers depth rest

end

/-- The text of a value, indented by two spaces. -/
def pretty (value : Json) : String :=
  String.ofList (prettyFrom 0 value)

mutual

/-- The text of a value without blanks. -/
def compactText : Json → List Char
  | array [] => ['[', ']']
  | array (item :: rest) => '[' :: compactText item ++ compactItems rest ++ [']']
  | object [] => ['\x7b', '\x7d']
  | object ((name, value) :: rest) =>
    '\x7b' :: quote name ++ ':' :: compactText value ++ compactMembers rest ++ ['\x7d']
  | scalar => scalarText scalar

/-- Further items, each after a comma. -/
def compactItems : List Json → List Char
  | [] => []
  | item :: rest => ',' :: compactText item ++ compactItems rest

/-- Further members, each after a comma. -/
def compactMembers : List (String × Json) → List Char
  | [] => []
  | (name, value) :: rest =>
    ',' :: quote name ++ ':' :: compactText value ++ compactMembers rest

end

/-- The text of a value on one line. -/
def compact (value : Json) : String :=
  String.ofList (compactText value)

end ScriptLint.Json
