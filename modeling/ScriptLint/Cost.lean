import ScriptLint.Token.Role

/-!
A rough estimate of what a script costs to run.

* `LineFeatures`: what the estimate looks at on a line.
* `Weight`, `Weights`: the thirteen weights, over any arithmetic; the standard
  ones are multiples of one half (`Weight.standardHalves`).
* `Metrics`: complexity, execution time and memory.
* `CostNumber`: the arithmetic that costs are computed in.
* `lineCost`: the cost of a line, a weighted sum of its features.
* `totalCost`: the sum over the lines of a script.
-/

namespace ScriptLint

/-! ### Features -/

/-- What the estimate looks at on a line. -/
structure LineFeatures where
  /-- It holds `if`, `while` or `for`. -/
  branches : Bool
  /-- It holds `while` or `for`. -/
  loops : Bool
  /-- It holds `else` or `elseif`. -/
  alternatives : Bool
  /-- The number of logical operators, words or signs. -/
  logical : Nat
  /-- The number of calls. -/
  calls : Nat
  /-- The number of arithmetic operators. -/
  arithmetic : Nat
  /-- It holds `var`. -/
  declares : Bool
  /-- It holds an array literal. -/
  arrays : Bool
  /-- It holds a string literal. -/
  strings : Bool
deriving DecidableEq, Repr

namespace Token

/-- The token is a logical operator, a word or a sign. -/
def isLogical (token : Token) : Bool :=
  match token.kind with
  | .keyword k => k.isLogical
  | .operator o => o.isLogical
  | _ => false

/-- The token is an arithmetic operator. -/
def isArithmetic (token : Token) : Bool :=
  match token.kind with
  | .operator o => o.isArithmetic
  | _ => false

/-- The token is a string literal. -/
def isString (token : Token) : Bool :=
  match token.kind with
  | .literal _ => true
  | _ => false

/-- A bracket right after the token takes an element of what ends there. -/
def isIndexable (token : Token) : Bool :=
  token.isIdentifier || token.isString || token.isDelimiter .rightParen ||
    token.isDelimiter .rightBracket

end Token

/-- The site is a bracket that starts an array literal: there is nothing before it
that could be indexed. -/
def Site.isArrayStart (site : Site) : Bool :=
  site.token.isDelimiter .leftBracket && !site.before?.any Token.isIndexable

/-- The features of a line. -/
def LineFeatures.ofTokens (tokens : List Token) : LineFeatures where
  branches := tokens.any fun t => t.keyword?.any Keyword.isBranchOrLoop
  loops := tokens.any fun t => t.keyword?.any Keyword.isLoop
  alternatives := tokens.any fun t => t.keyword?.any Keyword.isAlternative
  logical := tokens.countP Token.isLogical
  calls := (ScriptLint.calls tokens).length
  arithmetic := tokens.countP Token.isArithmetic
  declares := tokens.any fun t => t.isKeyword .var
  arrays := (Site.ofTokens tokens).any Site.isArrayStart
  strings := tokens.any Token.isString

/-! ### Weights and metrics -/

/-- The weights of the estimate: five for complexity, four for time, four for
memory. -/
inductive Weight where
  | complexityBase | branch | elseBranch | logicalOperator | callComplexity
  | timeBase | callTime | arithmetic | loopTime
  | memoryBase | declaration | arrayLiteral | stringLiteral
deriving DecidableEq, Repr

namespace Weight

/-- Every weight once, in the order of the settings. -/
def all : List Weight :=
  [complexityBase, branch, elseBranch, logicalOperator, callComplexity, timeBase,
    callTime, arithmetic, loopTime, memoryBase, declaration, arrayLiteral,
    stringLiteral]

/-- The name of the weight in settings. -/
def key : Weight → String
  | complexityBase => "complexity_base"
  | branch => "branch"
  | elseBranch => "else_branch"
  | logicalOperator => "logical_operator"
  | callComplexity => "call_complexity"
  | timeBase => "time_base"
  | callTime => "call_time"
  | arithmetic => "arithmetic"
  | loopTime => "loop_time"
  | memoryBase => "memory_base"
  | declaration => "declaration"
  | arrayLiteral => "array_literal"
  | stringLiteral => "string_literal"

/-- The standard weight, counted in halves. -/
def standardHalves : Weight → Nat
  | complexityBase => 2
  | branch => 4
  | elseBranch => 2
  | logicalOperator => 2
  | callComplexity => 1
  | timeBase => 2
  | callTime => 4
  | arithmetic => 1
  | loopTime => 20
  | memoryBase => 2
  | declaration => 8
  | arrayLiteral => 16
  | stringLiteral => 4

/-- Every weight is in the table. -/
theorem mem_all (weight : Weight) : weight ∈ all := by
  cases weight <;> decide

end Weight

/-- A value for each weight. -/
structure Weights (α : Type) where
  value : Weight → α

namespace Weights

/-- The standard weights. -/
def standard : Weights Float :=
  ⟨fun weight => Float.ofNat weight.standardHalves / 2⟩

/-- The weights with one value replaced. -/
def set {α : Type} (weights : Weights α) (weight : Weight) (value : α) : Weights α :=
  ⟨fun other => if other = weight then value else weights.value other⟩

end Weights

/-- The three estimates. -/
structure Metrics (α : Type) where
  complexity : α
  time : α
  memory : α
deriving Repr

/-! ### The estimate -/

/-- The numbers that costs are computed with. -/
class CostNumber (α : Type) extends Add α, Mul α where
  /-- A number of occurrences as such a number. -/
  ofCount : Nat → α

/-- Costs are computed with doubles. -/
instance : CostNumber Float := ⟨Float.ofNat⟩

section Estimate

variable {α : Type} [CostNumber α]

/-- A weight that counts if a feature is there. -/
def weightIf (present : Bool) (weight : α) : α :=
  if present then weight else CostNumber.ofCount 0

/-- A weight that counts once for each of `n` occurrences. -/
def weightTimes (n : Nat) (weight : α) : α :=
  CostNumber.ofCount n * weight

/-- The metrics of nothing. -/
def Metrics.zero : Metrics α :=
  ⟨CostNumber.ofCount 0, CostNumber.ofCount 0, CostNumber.ofCount 0⟩

/-- The metrics of two parts together. -/
def Metrics.add (a b : Metrics α) : Metrics α :=
  ⟨a.complexity + b.complexity, a.time + b.time, a.memory + b.memory⟩

/-- The cost of features. Each sum is taken from left to right. -/
def LineFeatures.cost (features : LineFeatures) (weights : Weights α) : Metrics α where
  complexity :=
    weights.value .complexityBase + weightIf features.branches (weights.value .branch) +
      weightIf features.alternatives (weights.value .elseBranch) +
      weightTimes features.logical (weights.value .logicalOperator) +
      weightTimes features.calls (weights.value .callComplexity)
  time :=
    weights.value .timeBase + weightTimes features.calls (weights.value .callTime) +
      weightTimes features.arithmetic (weights.value .arithmetic) +
      weightIf features.loops (weights.value .loopTime)
  memory :=
    weights.value .memoryBase + weightIf features.declares (weights.value .declaration) +
      weightIf features.arrays (weights.value .arrayLiteral) +
      weightIf features.strings (weights.value .stringLiteral)

/-- The cost of a line. -/
def lineCost (weights : Weights α) (tokens : List Token) : Metrics α :=
  (LineFeatures.ofTokens tokens).cost weights

/-- The cost of lines, added up in order, starting from nothing. -/
def totalCost (weights : Weights α) (lines : List (List Token)) : Metrics α :=
  lines.foldl (fun total tokens => total.add (lineCost weights tokens)) Metrics.zero

end Estimate

end ScriptLint
