import ScriptLint.Text.Hex
import ScriptLint.Toml.Strings

/-!
Writing TOML strings.

* `StringKind`: the four kinds of string.
* `StringKind.suits`: the kind shows the text as it is, without escapes other than
  those for tabs.
* `StringKind.ofText`: the first kind that suits a text.
* `escapeFrom`: the text of a basic string. Over several lines two double quotes in
  a row stand for themselves, and a third is escaped.
* `writeString`: a string in the kind that suits it.
-/

namespace ScriptLint.Toml

/-- The kinds of string: in double quotes with escapes or in single quotes without,
on one line or over several. -/
inductive StringKind where
  | basic | literal | basicLines | literalLines
deriving DecidableEq, Repr

/-! ### The choice of a kind -/

/-- The length of the longest run of a character, given the length of the run that
the text continues. -/
def longestRunFrom (mark : Char) : Nat → List Char → Nat
  | run, [] => run
  | run, c :: rest =>
    if c = mark then longestRunFrom mark (run + 1) rest
    else max run (longestRunFrom mark 0 rest)

/-- The length of the longest run of a character. -/
def longestRun (mark : Char) (text : List Char) : Nat :=
  longestRunFrom mark 0 text

/-- The text has no control characters but tabs and line feeds. -/
def isPrintable (text : List Char) : Bool :=
  text.all fun c => isPlainChar c || c == '\n'

namespace StringKind

/-- Every kind once, the one to be preferred first. -/
def all : List StringKind :=
  [basic, literal, basicLines, literalLines]

/-- A text is shown as it is by this kind of string. No kind shows control
characters, one line shows no line feed and no quotes of its own, basic strings show
no backslash, and several lines show at most two of their quotes in a row. -/
def suits (text : List Char) : StringKind → Bool
  | basic => isPrintable text && text.all fun c => c != '\\' && c != '"' && c != '\n'
  | literal => isPrintable text && text.all fun c => c != '\'' && c != '\n'
  | basicLines => isPrintable text && !text.contains '\\' && longestRun '"' text ≤ 2
  | literalLines => isPrintable text && longestRun '\'' text ≤ 2

/-- The first kind that suits a text. If none does, the string is a basic one, over
several lines if the text has any. -/
def ofText (text : List Char) : StringKind :=
  match all.find? (suits text) with
  | some kind => kind
  | none => if text.contains '\n' then basicLines else basic

/-- The string goes over several lines. -/
def isOverLines : StringKind → Bool
  | basicLines | literalLines => true
  | _ => false

/-- The string has escapes. -/
def hasEscapes : StringKind → Bool
  | basic | basicLines => true
  | _ => false

/-- The quotes at both ends. -/
def quotes : StringKind → List Char
  | basic => ['"']
  | literal => ['\'']
  | basicLines => ['"', '"', '"']
  | literalLines => ['\'', '\'', '\'']

end StringKind

/-! ### Escapes -/

/-- A hexadecimal number of four digits, with capital letters. -/
def upperQuad (n : Nat) : List Char :=
  (Text.hexQuad n).map Char.toUpper

/-- A character of a basic string, double quotes apart. Over several lines a line
feed stands for itself. -/
def escapeStringChar (overLines : Bool) (c : Char) : List Char :=
  if c = '\x08' then ['\\', 'b']
  else if c = '\t' then ['\\', 't']
  else if c = '\n' then (if overLines then ['\n'] else ['\\', 'n'])
  else if c = '\x0c' then ['\\', 'f']
  else if c = '\r' then ['\\', 'r']
  else if c = '\\' then ['\\', '\\']
  else if isPlainChar c then [c]
  else '\\' :: 'u' :: upperQuad c.toNat

/-- The number of double quotes in a row that may stand in a basic string. -/
def quotesInRow (overLines : Bool) : Nat :=
  if overLines then 2 else 0

/-- The text of a basic string between its quotes, given the number of double quotes
in a row that stand before it. A quote too many is escaped, and the count starts
again behind it. -/
def escapeFrom (overLines : Bool) : Nat → List Char → List Char
  | _, [] => []
  | run, c :: rest =>
    if c = '"' then
      if run < quotesInRow overLines then '"' :: escapeFrom overLines (run + 1) rest
      else '\\' :: '"' :: escapeFrom overLines 0 rest
    else
      escapeStringChar overLines c ++ escapeFrom overLines 0 rest

/-! ### Strings -/

/-- A string of this kind. A text with line feeds starts on a line of its own. -/
def StringKind.write (kind : StringKind) (text : List Char) : List Char :=
  let start := if kind.isOverLines && text.contains '\n' then ['\n'] else []
  let body := if kind.hasEscapes then escapeFrom kind.isOverLines 0 text else text
  kind.quotes ++ start ++ body ++ kind.quotes

/-- A string in the kind that suits it. -/
def writeString (value : String) : List Char :=
  (StringKind.ofText value.toList).write value.toList

end ScriptLint.Toml
