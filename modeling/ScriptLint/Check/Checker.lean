import ScriptLint.Check.Blocks
import ScriptLint.Check.Functions
import ScriptLint.Check.LineShape
import ScriptLint.Check.Scope

/-!
The four checks as one type, so that any list of them can run over a script.

* `Checker`: a check with all it has learnt from the lines so far.
* `Notes`: what a check says, findings and the block step it took.
* `Checker.line`, `Checker.finish`: one line, and the end of the script.
* `Checker.lineAll`: one line through several checks, in order.
* `Checker.standard`: the four checks in the order of a report.
-/

namespace ScriptLint

/-- What a check says about a line or about the whole script. -/
structure Notes where
  findings : List Finding
  steps : List BlockStep
deriving DecidableEq, Repr

namespace Notes

/-- Nothing is said. -/
def none : Notes := ⟨[], []⟩

/-- First what the one says, then what the other says. -/
def append (a b : Notes) : Notes :=
  ⟨a.findings ++ b.findings, a.steps ++ b.steps⟩

end Notes

/-- A check with its state. -/
inductive Checker where
  /-- Brackets and characters of single lines. -/
  | lineShape
  /-- The nesting of blocks. -/
  | blocks (stack : List Frame)
  /-- Variables. -/
  | declarations (scope : Scope)
  /-- Calls, and loops that cannot end. -/
  | calls (functions : Functions)
deriving DecidableEq, Repr

namespace Checker

/-- The checks in the order in which their findings on one line are reported, all
at the start of a script. -/
def standard : List Checker :=
  [lineShape, blocks [], declarations Scope.empty, calls Functions.empty]

/-- The name under which a check appears in the log. -/
def name : Checker → String
  | lineShape => "SyntaxChecker"
  | blocks _ => "ControlFlowValidator"
  | declarations _ => "DeclarationTracker"
  | calls _ => "FunctionCallChecker"

/-- One line through one check. -/
def line (catalogue : Catalogue) (number : Nat) (tokens : List Token) :
    Checker → Checker × Notes
  | lineShape => (lineShape, ⟨lineShapeFindings number tokens, []⟩)
  | blocks stack =>
    let (next, step?) := blockLine stack number tokens
    (blocks next, ⟨(step?.bind BlockStep.finding?).toList, step?.toList⟩)
  | declarations scope =>
    let (next, findings) := scope.line catalogue number tokens
    (declarations next, ⟨findings, []⟩)
  | calls functions =>
    let (next, findings) := functions.line catalogue number tokens
    (calls next, ⟨findings, []⟩)

/-- The end of the script for one check: the open blocks are closed, the unused
variables are told. -/
def finish : Checker → Checker × List Finding
  | lineShape => (lineShape, [])
  | blocks stack => (blocks [], unclosedFindings stack)
  | declarations scope => (declarations scope, scope.unusedFindings)
  | calls functions => (calls functions, [])

/-- One line through several checks, in order. -/
def lineAll (catalogue : Catalogue) (number : Nat) (tokens : List Token) :
    List Checker → List Checker × Notes
  | [] => ([], Notes.none)
  | first :: rest =>
    let (next, notes) := first.line catalogue number tokens
    let (later, others) := lineAll catalogue number tokens rest
    (next :: later, notes.append others)

/-- A call of the name is in order, as far as this check knows; only the check of
calls can tell. -/
def knows? (catalogue : Catalogue) (name : List Char) : Checker → Option Bool
  | calls functions => some (functions.knows catalogue name)
  | _ => none

end Checker

end ScriptLint
