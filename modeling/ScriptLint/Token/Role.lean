import ScriptLint.Token.Basic

/-!
What the tokens of a line are used for.

* `Site`: a token with its index and its two neighbours.
* `Site.isCall`, `Site.isFunctionName`, `Site.isMember`: the roles that the
  neighbours alone decide.
* `FunctionHeader`: the header of a function definition; its parameters are the
  identifiers directly inside the parentheses (`FunctionHeader.ofTokens?`).
* `headNames`: the names that a function header or a `for` line declares.
* `Role`, `Site.role`: what an identifier does on its line: declare a name in one
  of three ways, name a function, be called, be a member, or be used.
-/

namespace ScriptLint

/-! ### Sites -/

/-- A token of a line with its surroundings. -/
structure Site where
  /-- How many tokens stand before it. -/
  index : Nat
  before? : Option Token
  token : Token
  after? : Option Token
deriving DecidableEq, Repr

namespace Site

/-- The sites of the tokens from an index on, given the token before them. -/
def ofTokensFrom (index : Nat) (before? : Option Token) : List Token → List Site
  | [] => []
  | token :: rest =>
    ⟨index, before?, token, rest.head?⟩ :: ofTokensFrom (index + 1) (some token) rest

/-- The sites of a line, in order. -/
def ofTokens (tokens : List Token) : List Site :=
  ofTokensFrom 0 none tokens

/-- The token stands directly after the keyword `function`. -/
def isFunctionName (site : Site) : Bool :=
  site.before?.any (·.isKeyword .function)

/-- The token stands directly after a dot. -/
def isMember (site : Site) : Bool :=
  site.before?.any (·.isDelimiter .dot)

/-- The token is an identifier directly before an opening parenthesis, and not
the name of a function that is being defined. -/
def isCall (site : Site) : Bool :=
  site.token.isIdentifier && site.after?.any (·.isDelimiter .leftParen) &&
    !site.isFunctionName

end Site

/-- The tokens of a line that call a function, in order. -/
def calls (tokens : List Token) : List Token :=
  ((Site.ofTokens tokens).filter Site.isCall).map Site.token

/-! ### Function headers -/

/-- The header of a function definition. -/
structure FunctionHeader where
  /-- The name of the function. -/
  name : Token
  /-- The indices of the parameters on the line. -/
  params : List Nat
deriving DecidableEq, Repr

namespace FunctionHeader

/-- The indices of the identifiers at depth one, up to the parenthesis that
closes depth one. The first token has the given index and the given number of
open parentheses before it. -/
def paramsFrom (index depth : Nat) : List Token → List Nat
  | [] => []
  | token :: rest =>
    if token.isDelimiter .leftParen then
      paramsFrom (index + 1) (depth + 1) rest
    else if token.isDelimiter .rightParen then
      if depth ≤ 1 then [] else paramsFrom (index + 1) (depth - 1) rest
    else if depth = 1 && token.isIdentifier then
      index :: paramsFrom (index + 1) depth rest
    else
      paramsFrom (index + 1) depth rest

/-- The parameters of a header, given what follows the name. -/
def paramsAfterName : List Token → List Nat
  | [] => []
  | token :: rest =>
    if token.isDelimiter .leftParen then paramsFrom 3 1 rest else []

/-- The header of a line that starts with `function` and an identifier. -/
def ofTokens? : List Token → Option FunctionHeader
  | first :: name :: rest =>
    if first.isKeyword .function && name.isIdentifier then
      some ⟨name, paramsAfterName rest⟩
    else
      none
  | _ => none

end FunctionHeader

/-! ### Roles of identifiers -/

/-- What an identifier does on its line. -/
inductive Role where
  /-- Declared by `var`. -/
  | varTarget
  /-- The variable that a `for` line counts with. -/
  | loopVariable
  /-- A parameter of the function that the line defines. -/
  | parameter
  /-- The name of a function that is being defined. -/
  | functionName
  /-- The name of a function that is called. -/
  | call
  /-- A member of what stands before the dot. -/
  | member
  /-- A use of a variable. -/
  | use
deriving DecidableEq, Repr

/-- The indices of the parameters that the line declares. -/
def parameterIndices (tokens : List Token) : List Nat :=
  match FunctionHeader.ofTokens? tokens with
  | some header => header.params
  | none => []

/-- The line starts with `for` and a variable to count with. -/
def startsCounting : List Token → Bool
  | first :: second :: _ => first.isKeyword .for_ && second.isIdentifier
  | _ => false

/-- The variable that the line counts with. -/
def Site.isLoopVariable (tokens : List Token) (site : Site) : Bool :=
  startsCounting tokens && site.index == 1

/-- A parameter of the function that the line defines. -/
def Site.isParameter (tokens : List Token) (site : Site) : Bool :=
  (parameterIndices tokens).contains site.index

/-- The names that the head of a line declares: its loop variable or its
parameters. -/
def headNames (tokens : List Token) : List (List Char) :=
  ((Site.ofTokens tokens).filter fun site =>
    site.isLoopVariable tokens || site.isParameter tokens).map (·.token.lexeme)

/-- The role of an identifier on a line with these tokens. The first that fits is
taken, in the order of the constructors. -/
def Site.role (tokens : List Token) (site : Site) : Role :=
  if site.before?.any (·.isKeyword .var) then .varTarget
  else if site.isLoopVariable tokens then .loopVariable
  else if site.isParameter tokens then .parameter
  else if site.isFunctionName then .functionName
  else if site.isCall then .call
  else if site.isMember then .member
  else .use

/-- The sites of the identifiers of a line, in order, each with its role. -/
def identifierRoles (tokens : List Token) : List (Site × Role) :=
  ((Site.ofTokens tokens).filter (·.token.isIdentifier)).map
    fun site => (site, site.role tokens)

end ScriptLint
