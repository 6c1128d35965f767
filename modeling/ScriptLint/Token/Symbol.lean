/-!
Operators and delimiters of the script language.

* `Operator`, `Operator.text`, `Operator.all`: the operators and how each is
  written.
* `Delimiter`, `Delimiter.char`, `Delimiter.all`: the brackets and punctuation,
  one character each; `Delimiter.ofChar?` finds the delimiter of a character.
-/

namespace ScriptLint

/-! ### Operators -/

/-- The operators. -/
inductive Operator where
  | plus | minus | times | divide | remainder | power
  | assign | equal | notEqual
  | less | lessEqual | greater | greaterEqual
  | bothOf | eitherOf | negation | bitAnd | bitOr | bitNot | question
deriving DecidableEq, Repr

namespace Operator

/-- Every operator once, in the order of the reference table. -/
def all : List Operator :=
  [plus, minus, times, divide, remainder, power, assign, equal, notEqual, less,
    lessEqual, greater, greaterEqual, bothOf, eitherOf, negation, bitAnd, bitOr,
    bitNot, question]

/-- The canonical spelling. -/
def text : Operator → String
  | plus => "+"
  | minus => "-"
  | times => "*"
  | divide => "/"
  | remainder => "%"
  | power => "^"
  | assign => "="
  | equal => "=="
  | notEqual => "!="
  | less => "<"
  | lessEqual => "<="
  | greater => ">"
  | greaterEqual => ">="
  | bothOf => "&&"
  | eitherOf => "||"
  | negation => "!"
  | bitAnd => "&"
  | bitOr => "|"
  | bitNot => "~"
  | question => "?"

/-- The operator counts as arithmetic: one of the five basic operations. -/
def isArithmetic : Operator → Bool
  | plus | minus | times | divide | remainder => true
  | _ => false

/-- The operator combines or negates conditions. -/
def isLogical : Operator → Bool
  | bothOf | eitherOf | negation => true
  | _ => false

/-- Every operator is in the table. -/
theorem mem_all (operator : Operator) : operator ∈ all := by
  cases operator <;> decide

end Operator

/-! ### Delimiters -/

/-- Brackets and punctuation. -/
inductive Delimiter where
  | leftParen | rightParen
  | leftBracket | rightBracket
  | leftBrace | rightBrace
  | comma | dot | colon | semicolon | backslash
deriving DecidableEq, Repr

namespace Delimiter

/-- Every delimiter once, in the order of the reference table. -/
def all : List Delimiter :=
  [leftParen, rightParen, leftBracket, rightBracket, leftBrace, rightBrace, comma,
    dot, colon, semicolon, backslash]

/-- The character that the delimiter is. -/
def char : Delimiter → Char
  | leftParen => '('
  | rightParen => ')'
  | leftBracket => '['
  | rightBracket => ']'
  | leftBrace => '\x7b'
  | rightBrace => '\x7d'
  | comma => ','
  | dot => '.'
  | colon => ':'
  | semicolon => ';'
  | backslash => '\\'

/-- The delimiter that a character is. -/
def ofChar? (c : Char) : Option Delimiter :=
  all.find? fun delimiter => delimiter.char == c

/-- Every delimiter is in the table. -/
theorem mem_all (delimiter : Delimiter) : delimiter ∈ all := by
  cases delimiter <;> decide

/-- The delimiter of a character is written as that character. -/
theorem char_of_ofChar? {c : Char} {delimiter : Delimiter}
    (h : ofChar? c = some delimiter) : delimiter.char = c := by
  simpa using List.find?_some h

end Delimiter

end ScriptLint
