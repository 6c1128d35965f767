import ScriptLint.Text.Folding

/-!
The reserved words of the script language, and the four kinds of block.

* `Keyword`, `Keyword.word`, `Keyword.all`: the words and their spelling.
* `Keyword.ofWord?`: the keyword a word spells, in any case of its letters.
* `BlockKind`: `if`, `while`, `for` and `function` blocks, each with the keyword
  that opens it and the one that closes it.
-/

namespace ScriptLint

/-! ### Keywords -/

/-- The reserved words. -/
inductive Keyword where
  | if_ | then_ | else_ | elseif | endif
  | while_ | do_ | endwhile
  | for_ | to_ | step | in_ | endfor
  | function | endfunction | return_
  | break_ | continue_
  | var | and_ | or_ | not_
deriving DecidableEq, Repr

namespace Keyword

/-- Every keyword once, in the order of the reference table. -/
def all : List Keyword :=
  [if_, then_, else_, elseif, endif, while_, do_, endwhile, for_, to_, step, in_,
    endfor, function, endfunction, return_, break_, continue_, var, and_, or_, not_]

/-- The canonical spelling, in small letters. -/
def word : Keyword → String
  | if_ => "if"
  | then_ => "then"
  | else_ => "else"
  | elseif => "elseif"
  | endif => "endif"
  | while_ => "while"
  | do_ => "do"
  | endwhile => "endwhile"
  | for_ => "for"
  | to_ => "to"
  | step => "step"
  | in_ => "in"
  | endfor => "endfor"
  | function => "function"
  | endfunction => "endfunction"
  | return_ => "return"
  | break_ => "break"
  | continue_ => "continue"
  | var => "var"
  | and_ => "and"
  | or_ => "or"
  | not_ => "not"

/-- The keyword a word spells. The case of its letters does not matter. -/
def ofWord? (word : List Char) : Option Keyword :=
  all.find? fun keyword => keyword.word.toList == Text.fold word

/-- The word begins a loop. -/
def isLoop : Keyword → Bool
  | while_ | for_ => true
  | _ => false

/-- The word begins a branch or a loop. -/
def isBranchOrLoop : Keyword → Bool
  | if_ | while_ | for_ => true
  | _ => false

/-- The word is an alternative of a branch. -/
def isAlternative : Keyword → Bool
  | else_ | elseif => true
  | _ => false

/-- The word is a logical operator. -/
def isLogical : Keyword → Bool
  | and_ | or_ | not_ => true
  | _ => false

/-- Every keyword is in the table. -/
theorem mem_all (keyword : Keyword) : keyword ∈ all := by
  cases keyword <;> decide

end Keyword

/-! ### Blocks -/

/-- The kinds of block. -/
inductive BlockKind where
  | branch | whileLoop | forLoop | function
deriving DecidableEq, Repr

namespace BlockKind

/-- Every kind of block once. -/
def all : List BlockKind :=
  [branch, whileLoop, forLoop, function]

/-- The keyword that opens a block. -/
def opener : BlockKind → Keyword
  | branch => .if_
  | whileLoop => .while_
  | forLoop => .for_
  | function => .function

/-- The keyword that closes a block. -/
def closer : BlockKind → Keyword
  | branch => .endif
  | whileLoop => .endwhile
  | forLoop => .endfor
  | function => .endfunction

/-- A kind is named by the keyword that opens it. -/
def display (kind : BlockKind) : String :=
  kind.opener.word

/-- The kind of block that a keyword opens. -/
def openedBy? (keyword : Keyword) : Option BlockKind :=
  all.find? fun kind => kind.opener == keyword

/-- The kind of block that a keyword closes. -/
def closedBy? (keyword : Keyword) : Option BlockKind :=
  all.find? fun kind => kind.closer == keyword

end BlockKind

end ScriptLint
