import ScriptLint.Issue
import ScriptLint.Token.Basic

/-!
The nesting of blocks.

* `BlockMark`: a line opens a block or closes one (`BlockMark.ofTokens?`).
* `Frame`: an open block; the open blocks form a stack, the innermost first.
* `BlockStep`: what became of a mark, `BlockStep.take`: one step on the stack.
* `BlockStep.finding?`: the step is a defect.
* `unclosedFindings`: the blocks still open at the end, the outermost first.
-/

namespace ScriptLint

/-- An open block. -/
structure Frame where
  kind : BlockKind
  /-- The place of the keyword that opened it. -/
  openedAt : Position
deriving DecidableEq, Repr

/-! ### Marks -/

/-- A line opens a block or closes one. -/
inductive BlockMark where
  | opens (kind : BlockKind)
  | closes (kind : BlockKind)
deriving DecidableEq, Repr

/-- The mark of a line and the column of its keyword. A line opens a block when
its first token is an opener and more tokens follow; it closes a block when a
closer is its only token. -/
def BlockMark.ofTokens? : List Token → Option (BlockMark × Nat)
  | [] => none
  | first :: rest => do
    let keyword ← first.keyword?
    match BlockKind.openedBy? keyword with
    | some kind => if rest.isEmpty then none else some (.opens kind, first.column)
    | none =>
      let kind ← BlockKind.closedBy? keyword
      if rest.isEmpty then some (.closes kind, first.column) else none

/-! ### Steps -/

/-- What became of a mark. -/
inductive BlockStep where
  /-- A block was opened; `depth` blocks are open now. -/
  | opened (frame : Frame) (depth : Nat)
  /-- A block was closed by its own closer. -/
  | closed (frame : Frame) (place : Position)
  /-- A block was closed by the closer of another kind. -/
  | mismatched (frame : Frame) (closer : BlockKind) (place : Position)
  /-- A closer stands where no block is open. -/
  | stray (closer : BlockKind) (place : Position)
deriving DecidableEq, Repr

namespace BlockStep

/-- One mark on the stack of open blocks. A closer always closes the innermost
block, whatever its kind. -/
def take (stack : List Frame) (place : Position) : BlockMark → List Frame × BlockStep
  | .opens kind =>
    (⟨kind, place⟩ :: stack, .opened ⟨kind, place⟩ (stack.length + 1))
  | .closes kind =>
    match stack with
    | [] => ([], .stray kind place)
    | frame :: outer =>
      if frame.kind = kind then (outer, .closed frame place)
      else (outer, .mismatched frame kind place)

/-- The finding that a step gives rise to. -/
def finding? : BlockStep → Option Finding
  | mismatched frame closer place =>
    some ⟨place, .mismatched closer frame.kind frame.openedAt.line⟩
  | stray closer place => some ⟨place, .stray closer⟩
  | _ => none

end BlockStep

/-- The step of a line, if it has a mark. -/
def blockLine (stack : List Frame) (number : Nat) (tokens : List Token) :
    List Frame × Option BlockStep :=
  match BlockMark.ofTokens? tokens with
  | none => (stack, none)
  | some (mark, column) =>
    let (next, step) := BlockStep.take stack ⟨number, column⟩ mark
    (next, some step)

/-- The findings on the blocks that are still open, the outermost first. -/
def unclosedFindings (stack : List Frame) : List Finding :=
  stack.reverse.map fun frame =>
    ⟨frame.openedAt, .unclosed frame.kind frame.openedAt.line⟩

end ScriptLint
