import ScriptLint.Position
import ScriptLint.Token.Symbol
import ScriptLint.Token.Keyword

/-!
What can be wrong with a script.

* `IssueCode`: the codes of the report with their names, descriptions and
  severities.
* `Problem`: a defect with the facts about it; `Problem.code` and
  `Problem.message` say how it is reported.
* `Finding`: a problem at a place, as the checks find it.
* `Issue`: an entry of a report, with its text in two forms.
-/

namespace ScriptLint

/-! ### Codes -/

/-- How bad an issue is. An error makes the script invalid. -/
inductive Severity where
  | error | warning
deriving DecidableEq, Repr

/-- The severity in a word. -/
def Severity.display : Severity → String
  | error => "error"
  | warning => "warning"

/-- The code of an issue. -/
inductive IssueCode where
  | unmatchedParens | unmatchedBrackets
  | invalidCharacter
  | unclosedControl
  | unmatchedEnd (kind : BlockKind)
  | redeclaredVariable | undeclaredVariable | unusedVariable
  | unknownFunction
  | infiniteLoop
deriving DecidableEq, Repr

namespace IssueCode

/-- Every code once, in the order of the reference table. -/
def all : List IssueCode :=
  [unmatchedParens, unmatchedBrackets, invalidCharacter, unclosedControl] ++
    BlockKind.all.map unmatchedEnd ++
    [redeclaredVariable, undeclaredVariable, unusedVariable, unknownFunction,
      infiniteLoop]

/-- The name of the code in reports. -/
def display : IssueCode → String
  | unmatchedParens => "UNMATCHED_PARENS"
  | unmatchedBrackets => "UNMATCHED_BRACKETS"
  | invalidCharacter => "INVALID_CHARACTER"
  | unclosedControl => "UNCLOSED_CONTROL"
  | unmatchedEnd .branch => "UNMATCHED_ENDIF"
  | unmatchedEnd .whileLoop => "UNMATCHED_ENDWHILE"
  | unmatchedEnd .forLoop => "UNMATCHED_ENDFOR"
  | unmatchedEnd .function => "UNMATCHED_ENDFUNCTION"
  | redeclaredVariable => "REDECLARED_VARIABLE"
  | undeclaredVariable => "UNDECLARED_VARIABLE"
  | unusedVariable => "UNUSED_VARIABLE"
  | unknownFunction => "UNKNOWN_FUNCTION"
  | infiniteLoop => "INFINITE_LOOP"

/-- The code of a name. -/
def ofName? (name : String) : Option IssueCode :=
  all.find? fun code => code.display == name

/-- The code in words. -/
def description : IssueCode → String
  | unmatchedParens => "Unmatched parentheses"
  | unmatchedBrackets => "Unmatched brackets"
  | invalidCharacter => "Invalid character"
  | unclosedControl => "Unclosed control structure"
  | unmatchedEnd kind => "Unmatched " ++ kind.closer.word
  | redeclaredVariable => "Variable redeclared"
  | undeclaredVariable => "Undeclared variable"
  | unusedVariable => "Unused variable"
  | unknownFunction => "Unknown function"
  | infiniteLoop => "Possible infinite loop"

/-- The severity is fixed by the code. -/
def severity : IssueCode → Severity
  | redeclaredVariable | unusedVariable | unknownFunction | infiniteLoop => .warning
  | _ => .error

/-- Every code is in the table. -/
theorem mem_all (code : IssueCode) : code ∈ all := by
  cases code with
  | unmatchedEnd kind => cases kind <;> decide
  | _ => decide

/-- A code is found by its name. -/
theorem ofName?_display (code : IssueCode) : ofName? code.display = some code := by
  cases code with
  | unmatchedEnd kind => cases kind <;> decide
  | _ => decide

end IssueCode

/-! ### Problems -/

/-- The two kinds of bracket whose numbers are compared. -/
inductive BracketKind where
  | round | square
deriving DecidableEq, Repr

namespace BracketKind

/-- The opening bracket. -/
def left : BracketKind → Delimiter
  | round => .leftParen
  | square => .leftBracket

/-- The closing bracket. -/
def right : BracketKind → Delimiter
  | round => .rightParen
  | square => .rightBracket

end BracketKind

/-- A defect of a script, with the facts about it. -/
inductive Problem where
  /-- The numbers of opening and closing brackets of a line differ. -/
  | unbalanced (kind : BracketKind) (lefts rights : Nat)
  /-- A character that belongs to no token. -/
  | invalidCharacter (char : Char)
  /-- The block that starts here is never closed. -/
  | unclosed (kind : BlockKind) (openedAt : Nat)
  /-- This closes the innermost block, which is of another kind. -/
  | mismatched (closer : BlockKind) (opened : BlockKind) (openedAt : Nat)
  /-- This closes a block where none is open. -/
  | stray (closer : BlockKind)
  | redeclared (name : String)
  | undeclared (name : String)
  | unused (name : String)
  | unknownFunction (name : String)
  | infiniteLoop
deriving DecidableEq, Repr

namespace Problem

/-- The bracket of which there are too many: the opening one, if there are more
of it than of the closing one, and else the closing one. -/
def surplus (kind : BracketKind) (lefts rights : Nat) : Delimiter :=
  if rights < lefts then kind.left else kind.right

/-- The code under which a problem is reported. -/
def code : Problem → IssueCode
  | unbalanced .round _ _ => .unmatchedParens
  | unbalanced .square _ _ => .unmatchedBrackets
  | invalidCharacter _ => .invalidCharacter
  | unclosed _ _ => .unclosedControl
  | mismatched closer _ _ => .unmatchedEnd closer
  | stray closer => .unmatchedEnd closer
  | redeclared _ => .redeclaredVariable
  | undeclared _ => .undeclaredVariable
  | unused _ => .unusedVariable
  | unknownFunction _ => .unknownFunction
  | infiniteLoop => .infiniteLoop

/-- The text put between single quotes. -/
def quoted (text : String) : String :=
  "'" ++ text ++ "'"

/-- The message of a problem. -/
def message : Problem → String
  | unbalanced kind lefts rights =>
    "Unmatched " ++ quoted (surplus kind lefts rights).char.toString ++ ": " ++
      toString lefts ++ " opening vs " ++ toString rights ++ " closing"
  | invalidCharacter char => "Invalid character " ++ quoted char.toString
  | unclosed kind openedAt =>
    quoted kind.display ++ " opened at line " ++ toString openedAt ++
      " is never closed with " ++ quoted kind.closer.word
  | mismatched closer opened openedAt =>
    quoted closer.closer.word ++ " does not match " ++ quoted opened.display ++
      " opened at line " ++ toString openedAt
  | stray closer =>
    quoted closer.closer.word ++ " without matching " ++ quoted closer.display
  | redeclared name => "Variable " ++ quoted name ++ " is already declared"
  | undeclared name => "Variable " ++ quoted name ++ " is used before declaration"
  | unused name => "Variable " ++ quoted name ++ " is declared but never used"
  | unknownFunction name => "Unknown function " ++ quoted name
  | infiniteLoop =>
    "Loop condition is always true; the loop can only end through 'break' or 'return'"

end Problem

/-- A problem at a place. -/
structure Finding where
  place : Position
  problem : Problem
deriving DecidableEq, Repr

/-! ### Issues -/

/-- An entry of a report. -/
structure Issue where
  place : Position
  message : String
  severity : Severity
  code : IssueCode
deriving DecidableEq, Repr

namespace Issue

/-- An issue of the severity that its code has. -/
def ofCode (code : IssueCode) (place : Position) (message : String) : Issue :=
  ⟨place, message, code.severity, code⟩

/-- The entry for a finding. -/
def ofFinding (finding : Finding) : Issue :=
  ofCode finding.problem.code finding.place finding.problem.message

/-- The issue is an error. -/
def isError (issue : Issue) : Bool :=
  issue.severity == .error

/-- The issue on one line: place, severity, code and message. -/
def display (issue : Issue) : String :=
  issue.place.display ++ ": " ++ issue.severity.display ++ "[" ++
    issue.code.display ++ "]: " ++ issue.message

/-- The issue as a sentence for the author of the script. -/
def userMessage (issue : Issue) : String :=
  issue.code.description ++ " at line " ++ toString issue.place.line ++ ", column " ++
    toString issue.place.column ++ ": " ++ issue.message

end Issue

end ScriptLint
