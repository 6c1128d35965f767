import ScriptLint.Token.Keyword
import ScriptLint.Token.Symbol

/-!
Tokens, the words of a source line.

* `TokenKind`: what a token is, with the keyword, operator or delimiter it
  stands for.
* `Token`: a kind with the characters it was read from and its column.
* `Token.display`: the kind in words and the characters in quotes.
-/

namespace ScriptLint

/-- What a token is. -/
inductive TokenKind where
  | identifier
  | keyword (keyword : Keyword)
  | number
  /-- A string literal; `closed` tells whether its closing quote is there. -/
  | literal (closed : Bool)
  | operator (operator : Operator)
  | delimiter (delimiter : Delimiter)
  /-- Characters that belong to no token; the first of them is `char`. -/
  | invalid (char : Char)
deriving DecidableEq, Repr

/-- The kind in words. -/
def TokenKind.display : TokenKind → String
  | identifier => "identifier"
  | keyword k => "keyword '" ++ k.word ++ "'"
  | number => "number"
  | literal _ => "string"
  | operator o => "operator '" ++ o.text ++ "'"
  | delimiter d => "delimiter '" ++ d.char.toString ++ "'"
  | invalid c => "invalid character '" ++ c.toString ++ "'"

/-- A token of a source line. -/
structure Token where
  kind : TokenKind
  /-- The characters of the token as they stand in the line. -/
  lexeme : List Char
  /-- The column of its first character in the physical line. -/
  column : Nat
deriving DecidableEq, Repr

namespace Token

/-- The characters of the token as a string. -/
def name (token : Token) : String :=
  String.ofList token.lexeme

/-- The kind in words, then the characters in quotes. -/
def display (token : Token) : String :=
  token.kind.display ++ " '" ++ token.name ++ "'"

/-- The token is an identifier. -/
def isIdentifier (token : Token) : Bool :=
  token.kind == .identifier

/-- The token is this keyword. -/
def isKeyword (token : Token) (keyword : Keyword) : Bool :=
  token.kind == .keyword keyword

/-- The token is this delimiter. -/
def isDelimiter (token : Token) (delimiter : Delimiter) : Bool :=
  token.kind == .delimiter delimiter

/-- The keyword that the token is. -/
def keyword? (token : Token) : Option Keyword :=
  match token.kind with
  | .keyword k => some k
  | _ => none

end Token

end ScriptLint
