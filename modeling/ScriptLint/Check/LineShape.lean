import ScriptLint.Issue
import ScriptLint.Token.Lexing

/-!
Defects that a single line shows by itself.

* `unbalanced?`: the opening and closing brackets of one kind differ in number.
* `invalidCharacter?`: the first character that belongs to no token.
* `lineShapeFindings`: both, for one line.
-/

namespace ScriptLint

/-- The number of tokens that are this delimiter. -/
def delimiterCount (delimiter : Delimiter) (tokens : List Token) : Nat :=
  tokens.countP (·.isDelimiter delimiter)

/-- The finding on brackets of one kind: they differ in number. It stands at the
first bracket of the sort of which there are too many. The sort that is the more
frequent one occurs, so there is always such a bracket (`unbalanced?_eq_none_iff`), and
no other place is needed in its stead: the column of the start of the line, which could
stand in for a missing bracket, is left out, since it is never reached. -/
def unbalanced? (kind : BracketKind) (number : Nat) (tokens : List Token) :
    Option Finding :=
  let lefts := delimiterCount kind.left tokens
  let rights := delimiterCount kind.right tokens
  if lefts = rights then
    none
  else
    (tokens.find? (·.isDelimiter (Problem.surplus kind lefts rights))).map fun token =>
      ⟨⟨number, token.column⟩, .unbalanced kind lefts rights⟩

/-- The character for which a token is invalid. -/
def Token.invalidCharacter? (token : Token) : Option Char :=
  match token.kind with
  | .invalid c => some c
  | _ => none

/-- The finding on the first invalid token of a line. -/
def invalidCharacter? (number : Nat) (tokens : List Token) : Option Finding :=
  tokens.findSome? fun token =>
    token.invalidCharacter?.map fun c =>
      ⟨⟨number, token.column⟩, .invalidCharacter c⟩

/-- What the tokens of one line show by themselves: parentheses, then square
brackets, then characters. -/
def lineShapeFindings (number : Nat) (tokens : List Token) : List Finding :=
  [unbalanced? .round number tokens, unbalanced? .square number tokens,
    invalidCharacter? number tokens].filterMap id

end ScriptLint
