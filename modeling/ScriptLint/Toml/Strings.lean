import ScriptLint.Text.Hex

/-!
TOML strings.

* `Toml.isPlainChar`: the characters that may stand for themselves.
* `Toml.readString`: a string of one of the four kinds at the start of a text.
-/

namespace ScriptLint.Toml

/-- A character that may stand for itself in strings and comments: a tab, or one
that is no control character of ASCII. -/
def isPlainChar (c : Char) : Bool :=
  c == '\t' || (0x20 ≤ c.toNat && c.toNat != 0x7F)

/-- A blank within a line. -/
def isLineBlank (c : Char) : Bool :=
  c == ' ' || c == '\t'

/-- The text behind its blanks, on the same line. -/
def skipLineBlanks (text : List Char) : List Char :=
  text.dropWhile isLineBlank

/-- The text behind a line ending. -/
def afterNewLine? : List Char → Option (List Char)
  | '\n' :: rest => some rest
  | '\r' :: '\n' :: rest => some rest
  | _ => none

/-- The text behind a line ending, if it starts with one, and else the text. -/
def skipNewLine (text : List Char) : List Char :=
  (afterNewLine? text).getD text

/-! ### Escapes -/

/-- The character of a hexadecimal code point of exactly `count` digits, and the
text behind it. -/
def readCodePoint (count : Nat) (text : List Char) : Option (Char × List Char) := do
  let digits := text.take count
  if digits.length = count then
    let values ← digits.mapM Text.hexValue?
    let code := Text.numberOf 16 values
    if code.isValidChar then some (Char.ofNat code, text.drop count) else none
  else
    none

/-- The character of an escape, given the text behind the backslash. -/
def readStringEscape : List Char → Option (Char × List Char)
  | 'b' :: rest => some ('\x08', rest)
  | 't' :: rest => some ('\t', rest)
  | 'n' :: rest => some ('\n', rest)
  | 'f' :: rest => some ('\x0c', rest)
  | 'r' :: rest => some ('\r', rest)
  | '"' :: rest => some ('"', rest)
  | '\\' :: rest => some ('\\', rest)
  | 'u' :: rest => readCodePoint 4 rest
  | 'U' :: rest => readCodePoint 8 rest
  | _ => none

/-- The text behind a line ending that a backslash hides, and behind all blanks
and line endings that follow; given the text behind the backslash. -/
def afterHiddenEnding? (text : List Char) : Option (List Char) := do
  let rest ← afterNewLine? (skipLineBlanks text)
  some (skipAll rest.length rest)
where
  /-- Skip blanks and line endings, at most `bound` times. -/
  skipAll : Nat → List Char → List Char
    | 0, text => text
    | bound + 1, text =>
      match afterNewLine? (skipLineBlanks text) with
      | some rest => skipAll bound rest
      | none => skipLineBlanks text

/-! ### Strings on one line -/

/-- The characters of a string up to its closing quote, and the text behind it.
A literal string has no escapes. The bound is on the number of characters. -/
def readLineString (quote : Char) : Nat → List Char → Option (List Char × List Char)
  | 0, _ => none
  | _ + 1, [] => none
  | bound + 1, c :: rest =>
    if c = quote then
      some ([], rest)
    else if c = '\\' && quote = '"' then do
      let (escaped, rest) ← readStringEscape rest
      let (more, rest) ← readLineString quote bound rest
      some (escaped :: more, rest)
    else if isPlainChar c then do
      let (more, rest) ← readLineString quote bound rest
      some (c :: more, rest)
    else
      none

/-! ### Strings over several lines -/

/-- The characters of a string up to its three closing quotes, and the text behind
them. Up to two more quotes directly before the closing ones belong to the string.
Line endings become line feeds. The bound is on the number of steps. -/
def readBlockString (quote : Char) : Nat → List Char → Option (List Char × List Char)
  | 0, _ => none
  | _ + 1, [] => none
  | bound + 1, c :: rest =>
    if c = quote then
      let quotes := 1 + (rest.takeWhile (· == quote)).length
      if 3 ≤ quotes then
        let own := min (quotes - 3) 2
        some (List.replicate own quote, (c :: rest).drop (own + 3))
      else do
        let (more, rest) ← readBlockString quote bound rest
        some (c :: more, rest)
    else if c = '\\' && quote = '"' then
      match afterHiddenEnding? rest with
      | some rest => readBlockString quote bound rest
      | none => do
        let (escaped, rest) ← readStringEscape rest
        let (more, rest) ← readBlockString quote bound rest
        some (escaped :: more, rest)
    else if isPlainChar c then do
      let (more, rest) ← readBlockString quote bound rest
      some (c :: more, rest)
    else
      match afterNewLine? (c :: rest) with
      | some rest => do
        let (more, rest) ← readBlockString quote bound rest
        some ('\n' :: more, rest)
      | none => none

/-! ### Strings of any kind -/

/-- A string that starts with this quote, given the text behind the quote: with
two more quotes it is one over several lines, which may start with a line ending
that does not count. -/
def readQuoted (quote : Char) (text : List Char) : Option (String × List Char) :=
  match text with
  | a :: b :: rest =>
    if a = quote && b = quote then do
      let (characters, rest) ← readBlockString quote (text.length + 1) (skipNewLine rest)
      some (String.ofList characters, rest)
    else
      onLine
  | _ => onLine
where
  /-- The string on one line. -/
  onLine : Option (String × List Char) := do
    let (characters, rest) ← readLineString quote (text.length + 1) text
    some (String.ofList characters, rest)

end ScriptLint.Toml
