import ScriptLint.Builtin
import ScriptLint.Check.EndlessLoop
import ScriptLint.Token.Role

/-!
Functions and their calls.

* `Functions`: the names that the script has defined so far.
* `Functions.knows`: a call of the name is in order.
* `Functions.line`: the findings of one line. Its own header counts as defined, and
  a loop that cannot end is told after the calls.
-/

namespace ScriptLint

/-- The functions defined so far, by the names in their headers. -/
structure Functions where
  defined : List (List Char)
deriving DecidableEq, Repr

namespace Functions

/-- No function is defined. -/
def empty : Functions := ⟨[]⟩

/-- The name is a keyword, built in, or defined by the script in this spelling. -/
def knows (catalogue : Catalogue) (functions : Functions) (name : List Char) : Bool :=
  catalogue.reserves name || functions.defined.contains name

/-- The functions after a line: a header defines its name. -/
def define (functions : Functions) (tokens : List Token) : Functions :=
  match FunctionHeader.ofTokens? tokens with
  | some header => ⟨header.name.lexeme :: functions.defined⟩
  | none => functions

/-- The findings on the calls of a line. -/
def unknownFindings (catalogue : Catalogue) (functions : Functions) (number : Nat)
    (tokens : List Token) : List Finding :=
  ((calls tokens).filter fun call => !functions.knows catalogue call.lexeme).map
    fun call => ⟨⟨number, call.column⟩, .unknownFunction call.name⟩

/-- One line of a script. -/
def line (catalogue : Catalogue) (functions : Functions) (number : Nat)
    (tokens : List Token) : Functions × List Finding :=
  let next := functions.define tokens
  (next, next.unknownFindings catalogue number tokens ++ endlessFindings number tokens)

end Functions

end ScriptLint
