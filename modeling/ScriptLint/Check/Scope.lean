import ScriptLint.Builtin
import ScriptLint.Issue
import ScriptLint.Token.Role

/-!
The declarations and uses of variables.

* `Scope`: the names declared and used so far, and the variables declared by
  `var`. A declaration holds to the end of the script.
* `Scope.declare`, `Scope.declareVariable`, `Scope.recordUse`: the operations.
* `Scope.line`: one line, first its parameters and loop variable, then the
  other identifiers in order.
* `Scope.unusedFindings`: the variables that are never used.
-/

namespace ScriptLint

/-- A variable declared by `var`. -/
structure Variable where
  name : List Char
  place : Position
deriving DecidableEq, Repr

/-- What is known about names at a point of a script. -/
structure Scope where
  /-- The names declared so far, in any way. -/
  declared : List (List Char)
  /-- The names used so far, built-in names apart. -/
  used : List (List Char)
  /-- The first declarations of variables, the latest first. -/
  introduced : List Variable
deriving DecidableEq, Repr

namespace Scope

/-- Nothing is declared or used. -/
def empty : Scope := ⟨[], [], []⟩

/-- The name is declared. -/
def declares (scope : Scope) (name : List Char) : Bool :=
  scope.declared.contains name

/-- The name is used. -/
def uses (scope : Scope) (name : List Char) : Bool :=
  scope.used.contains name

/-- Declare a parameter or a loop variable. -/
def declare (scope : Scope) (name : List Char) : Scope :=
  if scope.declares name then scope
  else { scope with declared := name :: scope.declared }

/-- Declare a variable; a name that is declared already is a finding. -/
def declareVariable (scope : Scope) (name : List Char) (place : Position) :
    Scope × List Finding :=
  if scope.declares name then
    (scope, [⟨place, .redeclared (String.ofList name)⟩])
  else
    ({ scope with
        declared := name :: scope.declared
        introduced := ⟨name, place⟩ :: scope.introduced }, [])

/-- Record the use of a name; a name that is neither declared nor a literal is a
finding. Built-in names are not recorded. -/
def recordUse (catalogue : Catalogue) (scope : Scope) (name : List Char)
    (place : Position) : Scope × List Finding :=
  if catalogue.contains name then
    (scope, [])
  else
    let next :=
      if scope.uses name then scope else { scope with used := name :: scope.used }
    if scope.declares name || Builtin.isLiteral name then
      (next, [])
    else
      (next, [⟨place, .undeclared (String.ofList name)⟩])

/-- Declare the names in the head of a line. -/
def declareHead (scope : Scope) (tokens : List Token) : Scope :=
  (headNames tokens).foldl declare scope

/-- One identifier in its role. -/
def identifier (catalogue : Catalogue) (number : Nat) (scope : Scope) :
    Site × Role → Scope × List Finding
  | (site, .varTarget) =>
    scope.declareVariable site.token.lexeme ⟨number, site.token.column⟩
  | (site, .use) =>
    scope.recordUse catalogue site.token.lexeme ⟨number, site.token.column⟩
  | _ => (scope, [])

/-- The identifiers of a line in order, each in its role. -/
def identifiers (catalogue : Catalogue) (number : Nat) :
    Scope → List (Site × Role) → Scope × List Finding
  | scope, [] => (scope, [])
  | scope, first :: rest =>
    let (next, findings) := scope.identifier catalogue number first
    let (last, later) := identifiers catalogue number next rest
    (last, findings ++ later)

/-- One line of a script. The names in its head are declared before anything on
it is looked at. -/
def line (catalogue : Catalogue) (scope : Scope) (number : Nat)
    (tokens : List Token) : Scope × List Finding :=
  (scope.declareHead tokens).identifiers catalogue number (identifierRoles tokens)

/-- The findings on the variables that are never used, in the order of their
declarations. -/
def unusedFindings (scope : Scope) : List Finding :=
  (scope.introduced.reverse.filter fun entry => !scope.uses entry.name).map
    fun entry => ⟨entry.place, .unused (String.ofList entry.name)⟩

end Scope

end ScriptLint
