import ScriptLint.Source.Line
import ScriptLint.Token.Basic

/-!
Reading the tokens of a source line.

* `Token.startsIdentifier`, `Token.continuesIdentifier`: the characters of
  identifiers; `Token.isValidIdentifier` holds of the texts made of them.
* `Token.extent`: the kind of the token that starts with a character, and how
  many more characters belong to it. The longest spelling wins.
* `Token.read`: the tokens of a text, `Token.ofLine`: those of a source line.
-/

namespace ScriptLint.Token

/-! ### Identifier characters -/

/-- A letter A to Z of either case, or the underscore. -/
def startsIdentifier (c : Char) : Bool :=
  c.isAlpha || c == '_'

/-- A letter A to Z of either case, a digit 0 to 9, or the underscore. -/
def continuesIdentifier (c : Char) : Bool :=
  c.isAlphanum || c == '_'

/-- A text that could be an identifier or a keyword. -/
def isValidIdentifier : List Char → Bool
  | [] => false
  | c :: rest => startsIdentifier c && rest.all continuesIdentifier

/-- The number of characters with which a text goes on as an identifier. -/
def identifierLength (text : List Char) : Nat :=
  (text.takeWhile continuesIdentifier).length

/-! ### Numerals and string literals -/

/-- The number of digits a text starts with. -/
def digitsLength (text : List Char) : Nat :=
  (text.takeWhile Char.isDigit).length

/-- The length of a fraction at the start of a text: a point and the digits
after it, nothing if no digit follows the point. -/
def fractionLength : List Char → Nat
  | '.' :: rest => if digitsLength rest = 0 then 0 else digitsLength rest + 1
  | _ => 0

/-- How far a numeral goes on behind its first character, which is a digit or a
point: digits and then a fraction, each of which may be missing. -/
def numeralLength (text : List Char) : Nat :=
  digitsLength text + fractionLength (text.drop (digitsLength text))

/-- How a literal goes on behind its opening quote: the number of characters to
its end, and whether it is closed there. A backslash protects the character
after it. -/
def literalExtent (quote : Char) : List Char → Nat × Bool
  | [] => (0, false)
  | c :: rest =>
    if c = '\\' then
      match rest with
      | [] => (1, false)
      | _ :: later =>
        let (more, closed) := literalExtent quote later
        (more + 2, closed)
    else if c = quote then
      (1, true)
    else
      let (more, closed) := literalExtent quote rest
      (more + 1, closed)

/-! ### Operators -/

/-- An operator of two characters. -/
def pairOperator? : Char → Char → Option Operator
  | '=', '=' => some .equal
  | '!', '=' => some .notEqual
  | '<', '>' => some .notEqual
  | '<', '=' => some .lessEqual
  | '>', '=' => some .greaterEqual
  | '&', '&' => some .bothOf
  | '|', '|' => some .eitherOf
  | _, _ => none

/-- An operator of one character. -/
def singleOperator? : Char → Option Operator
  | '+' => some .plus
  | '-' => some .minus
  | '*' => some .times
  | '/' => some .divide
  | '%' => some .remainder
  | '^' => some .power
  | '~' => some .bitNot
  | '?' => some .question
  | '=' => some .assign
  | '!' => some .negation
  | '<' => some .less
  | '>' => some .greater
  | '&' => some .bitAnd
  | '|' => some .bitOr
  | _ => none

/-- The operator at the start of a text with the number of characters behind its
first one. Two characters win over one. -/
def operatorExtent? (c : Char) (rest : List Char) : Option (Operator × Nat) :=
  match rest.head?.bind (pairOperator? c) with
  | some operator => some (operator, 1)
  | none => (singleOperator? c).map (·, 0)

/-! ### One token -/

/-- The kind of the word `c :: rest` starts with: a keyword or an identifier. -/
def wordKind (word : List Char) : TokenKind :=
  match Keyword.ofWord? word with
  | some keyword => .keyword keyword
  | none => .identifier

/-- The kind of the token that starts with the character `c`, which is not
blank, and the number of characters behind `c` that belong to it. -/
def extent (c : Char) (rest : List Char) : TokenKind × Nat :=
  if c.isDigit || (c == '.' && digitsLength rest != 0) then
    (.number, numeralLength rest)
  else if Zone.isQuote c then
    let (more, closed) := literalExtent c rest
    (.literal closed, more)
  else if startsIdentifier c then
    let more := identifierLength rest
    (wordKind (c :: rest.take more), more)
  else
    match Delimiter.ofChar? c with
    | some delimiter => (.delimiter delimiter, 0)
    | none =>
      match operatorExtent? c rest with
      | some (operator, more) => (.operator operator, more)
      | none => (.invalid c, 0)

/-! ### All tokens -/

/-- The tokens of the rest of a line that starts at this column. Right after a
numeral, a letter or underscore starts a run of identifier characters that is
one invalid token. -/
def read (column : Nat) (afterNumber : Bool) : List Char → List Token
  | [] => []
  | c :: rest =>
    if Text.isBlank c then
      read (column + 1) false rest
    else
      let (kind, more) :=
        if afterNumber && startsIdentifier c then
          (.invalid c, identifierLength rest)
        else
          extent c rest
      ⟨kind, c :: rest.take more, column⟩ ::
        read (column + 1 + more) (kind == .number) (rest.drop more)
termination_by text => text.length

/-- The tokens of a source line, with their columns in the physical line. -/
def ofLine (line : SourceLine) : List Token :=
  read (line.column 0) false line.text

end ScriptLint.Token
