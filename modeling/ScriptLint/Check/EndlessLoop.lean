import ScriptLint.Issue
import ScriptLint.Token.Basic

/-!
Loops that cannot end by their condition.

* `loopCondition`: the condition of a `while` line, without parentheses.
* `isEndless`: the condition is a constant that holds.
* `endlessFindings`: the finding on such a line, at the keyword.
-/

namespace ScriptLint

/-- What stands between `while` and an optional `do` at the end of the line,
without parentheses. -/
def loopCondition (tokens : List Token) : List Token :=
  let inner := tokens.filter fun token =>
    !(token.isDelimiter .leftParen || token.isDelimiter .rightParen)
  if inner.getLast?.any (·.isKeyword .do_) then inner.dropLast else inner

/-- A token that is a condition which always holds: `true` in any case of its
letters, or the numeral `1`. -/
def Token.isAlwaysTrue (token : Token) : Bool :=
  match token.kind with
  | .identifier => Text.sameName token.lexeme "true".toList
  | .number => token.lexeme == "1".toList
  | _ => false

/-- The line starts a `while` loop whose condition always holds. -/
def isEndless : List Token → Bool
  | [] => false
  | first :: rest =>
    first.isKeyword .while_ &&
      match loopCondition rest with
      | [only] => only.isAlwaysTrue
      | _ => false

/-- The finding on a loop that cannot end by its condition. -/
def endlessFindings (number : Nat) (tokens : List Token) : List Finding :=
  if isEndless tokens then
    tokens.head?.toList.map fun first => ⟨⟨number, first.column⟩, .infiniteLoop⟩
  else
    []

end ScriptLint
