import ScriptLint.Json.Value
import ScriptLint.Text.Hex

/-!
Reading JSON values.

* `Json.readString`: the rest of a string behind its opening quote.
* `Json.readNumber`: a number.
* `Json.readValue`: a value at the start of a text.
* `Json.parse?`: the value that a whole text is; none if the text is anything else.
-/

namespace ScriptLint.Json

/-! ### Blanks and words -/

/-- The four blanks of JSON. -/
def isJsonBlank (c : Char) : Bool :=
  c == ' ' || c == '\t' || c == '\n' || c == '\r'

/-- The text behind its blanks. -/
def skipBlanks (text : List Char) : List Char :=
  text.dropWhile isJsonBlank

/-- The text behind a word it starts with. -/
def afterWord? (word text : List Char) : Option (List Char) :=
  if word.isPrefixOf text then some (text.drop word.length) else none

/-! ### Strings -/

/-- The number that four hexadecimal digits stand for, and the text behind them. -/
def readQuad : List Char → Option (Nat × List Char)
  | a :: b :: c :: d :: rest => do
    let values ← [a, b, c, d].mapM Text.hexValue?
    some (Text.numberOf 16 values, rest)
  | _ => none

/-- The lower half of a surrogate pair at the start of a text, as an escape, and the
text behind it. -/
def readLowerHalf : List Char → Option (Nat × List Char)
  | '\\' :: 'u' :: rest =>
    (readQuad rest).filter fun (unit, _) => 0xDC00 ≤ unit && unit < 0xE000
  | _ => none

/-- The character of an escape by code units, given the text behind the letter
`u`. The upper half of a pair takes the escape of the lower half with it; a half
without the other is no character. -/
def readUnits (text : List Char) : Option (Option Char × List Char) := do
  let (unit, rest) ← readQuad text
  if 0xD800 ≤ unit && unit < 0xDC00 then
    match readLowerHalf rest with
    | some (low, rest) =>
      some (Char.ofNat (0x10000 + (unit - 0xD800) * 0x400 + (low - 0xDC00)), rest)
    | none => some (none, rest)
  else if 0xDC00 ≤ unit && unit < 0xE000 then
    some (none, rest)
  else
    some (Char.ofNat unit, rest)

/-- The character of an escape, given the text behind the backslash. -/
def readEscape : List Char → Option (Option Char × List Char)
  | '"' :: rest => some ('"', rest)
  | '\\' :: rest => some ('\\', rest)
  | '/' :: rest => some ('/', rest)
  | 'b' :: rest => some ('\x08', rest)
  | 'f' :: rest => some ('\x0c', rest)
  | 'n' :: rest => some ('\n', rest)
  | 'r' :: rest => some ('\r', rest)
  | 't' :: rest => some ('\t', rest)
  | 'u' :: rest => readUnits rest
  | _ => none

/-- The characters of a string up to its closing quote, with none for half of a
surrogate pair, and the text behind the quote. Control characters have to be escaped.
Each step takes a character or an escape, so a bound on their number is the length of
the text. -/
def readStringFrom : Nat → List Char → Option (List (Option Char) × List Char)
  | 0, _ => none
  | _ + 1, [] => none
  | bound + 1, c :: rest =>
    if c = '"' then
      some ([], rest)
    else if c = '\\' then do
      let (escaped, rest) ← readEscape rest
      let (more, rest) ← readStringFrom bound rest
      some (escaped :: more, rest)
    else if c.toNat < 0x20 then
      none
    else do
      let (more, rest) ← readStringFrom bound rest
      some (some c :: more, rest)

/-- The rest of a string behind its opening quote, and the text behind it. A string
with half of a surrogate pair is no text. -/
def readString (text : List Char) : Option (Option String × List Char) := do
  let (characters, rest) ← readStringFrom text.length text
  some ((characters.mapM id).map String.ofList, rest)

/-! ### Numbers -/

/-- Digits at the start of a text, at least one, and the text behind them. -/
def readDigits (text : List Char) : Option (List Char × List Char) :=
  let digits := text.takeWhile Char.isDigit
  if digits.isEmpty then none else some (digits, text.dropWhile Char.isDigit)

/-- The whole part of a number. It has no needless zero at its start. -/
def readWhole (text : List Char) : Option (List Char × List Char) :=
  match text with
  | '0' :: rest => some (['0'], rest)
  | _ => readDigits text

/-- The digits of a fraction; no digits if there is no point. A point without digits
behind it is refused. -/
def readFraction : List Char → Option (List Char × List Char)
  | '.' :: rest => readDigits rest
  | text => some ([], text)

/-- The sign in front of an exponent: whether it is a minus, and the text behind. -/
def readSign : List Char → Bool × List Char
  | '+' :: rest => (false, rest)
  | '-' :: rest => (true, rest)
  | text => (false, text)

/-- An exponent; none if there is no letter `e`. -/
def readExponent (text : List Char) : Option (Option Int × List Char) :=
  match text with
  | c :: rest =>
    if c == 'e' || c == 'E' then do
      let (negative, rest) := readSign rest
      let (digits, rest) ← readDigits rest
      let size : Int := Decimal.natOfDigits digits
      some (some (if negative then -size else size), rest)
    else
      some (none, text)
  | [] => some (none, [])

/-- The rest of a number behind its sign. -/
def readUnsigned (negative : Bool) (text : List Char) :
    Option (Number × List Char) := do
  let (whole, rest) ← readWhole text
  let (fraction, rest) ← readFraction rest
  let (exponent?, rest) ← readExponent rest
  some (⟨negative, whole, fraction, exponent?⟩, rest)

/-- A number at the start of a text. -/
def readNumber : List Char → Option (Number × List Char)
  | '-' :: rest => readUnsigned true rest
  | text => readUnsigned false text

/-! ### Values -/

mutual

/-- A value at the start of a text, behind its blanks. Each level and each item
takes at least a character, so a bound on their number is the length of the
text. -/
def readValue : Nat → List Char → Option (Json × List Char)
  | 0, _ => none
  | bound + 1, text =>
    match skipBlanks text with
    | '[' :: rest =>
      match skipBlanks rest with
      | ']' :: rest => some (array [], rest)
      | _ => do
        let (items, rest) ← readItems bound rest
        some (array items, rest)
    | '\x7b' :: rest =>
      match skipBlanks rest with
      | '\x7d' :: rest => some (object [], rest)
      | _ => do
        let (members, rest) ← readMembers bound rest
        some (ofMembers members, rest)
    | '"' :: rest => do
      let (value?, rest) ← readString rest
      some (value?.elim textless string, rest)
    | 'n' :: rest => (afterWord? "ull".toList rest).map (null, ·)
    | 't' :: rest => (afterWord? "rue".toList rest).map (bool true, ·)
    | 'f' :: rest => (afterWord? "alse".toList rest).map (bool false, ·)
    | text => (readNumber text).map fun (value, rest) => (number value, rest)

/-- The items of an array up to its closing bracket, at least one. -/
def readItems : Nat → List Char → Option (List Json × List Char)
  | 0, _ => none
  | bound + 1, text => do
    let (item, rest) ← readValue bound text
    match skipBlanks rest with
    | ',' :: rest =>
      let (items, rest) ← readItems bound rest
      some (item :: items, rest)
    | ']' :: rest => some ([item], rest)
    | _ => none

/-- The members of an object up to its closing brace, at least one. -/
def readMembers : Nat → List Char →
    Option (List (Option String × Json) × List Char)
  | 0, _ => none
  | bound + 1, text =>
    match skipBlanks text with
    | '"' :: rest => do
      let (name?, rest) ← readString rest
      match skipBlanks rest with
      | ':' :: rest =>
        let (value, rest) ← readValue bound rest
        match skipBlanks rest with
        | ',' :: rest =>
          let (members, rest) ← readMembers bound rest
          some ((name?, value) :: members, rest)
        | '\x7d' :: rest => some ([(name?, value)], rest)
        | _ => none
      | _ => none
    | _ => none

end

/-- The value that a text is, blanks around it apart. -/
def parse? (text : String) : Option Json := do
  let (value, rest) ← readValue (text.length + 1) text.toList
  if (skipBlanks rest).isEmpty then some value else none

end ScriptLint.Json
