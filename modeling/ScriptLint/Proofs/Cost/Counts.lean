import Mathlib
import ScriptLint.Cost
import ScriptLint.Proofs.Cost.Halves
import ScriptLint.Proofs.Cost.Totals
import ScriptLint.Proofs.Names.Division

/-!
The cost of a script as a count of what stands in it.

* `Weights.halves`: the standard weights as numbers of halves, with costs in natural numbers.
* `Holds`, `countOf`, `callSites`, `ArrayStart`: the lines and tokens that are counted.
* `lineCost_halves`, `totalCost_halves`: the cost of a line and of a script in these counts.
* `totalCost_inHalves`: costs in doubles are these costs, as long as halves are exact.
* `CountsCosts`, `performance_counts`: the closed form of the metrics that are reported.
-/

namespace ScriptLint

/-! ### Costs in halves -/

/-- Costs that are counted in halves are natural numbers. -/
instance : CostNumber ℕ := ⟨id⟩

/-- The standard weights in halves. -/
def Weights.halves : Weights ℕ := ⟨Weight.standardHalves⟩

/-! ### What is counted -/

section Kinds

/-- The words that begin a branch or a loop. -/
def branching : List TokenKind :=
  [.keyword .if_, .keyword .while_, .keyword .for_]

/-- The words that begin a loop. -/
def looping : List TokenKind :=
  [.keyword .while_, .keyword .for_]

/-- The words that begin an alternative. -/
def alternative : List TokenKind :=
  [.keyword .else_, .keyword .elseif]

/-- The logical operators, words and signs. -/
def logical : List TokenKind :=
  [.keyword .and_, .keyword .or_, .keyword .not_, .operator .bothOf, .operator .eitherOf,
    .operator .negation]

/-- The five basic operations. -/
def arithmetic : List TokenKind :=
  [.operator .plus, .operator .minus, .operator .times, .operator .divide, .operator .remainder]

/-- String literals, closed or not. -/
def strings : List TokenKind :=
  [.literal true, .literal false]

/-- What can be indexed by a bracket behind it. -/
def indexable : List TokenKind :=
  [.identifier, .delimiter .rightParen, .delimiter .rightBracket] ++ strings

/-- A token of one of these kinds stands on the line. -/
def Holds (kinds : List TokenKind) (tokens : List Token) : Prop :=
  ∃ token ∈ tokens, token.kind ∈ kinds

instance (kinds : List TokenKind) (tokens : List Token) : Decidable (Holds kinds tokens) :=
  inferInstanceAs (Decidable (∃ token ∈ tokens, token.kind ∈ kinds))

/-- The number of tokens of one of these kinds on a line. -/
def countOf (kinds : List TokenKind) (tokens : List Token) : ℕ :=
  tokens.countP fun token => token.kind ∈ kinds

/-- The number of names that are called on a line. -/
def callSites (tokens : List Token) : ℕ :=
  (List.range tokens.length).countP fun index => CallSite tokens index

/-- A bracket that starts an array literal: it is first on its line, or behind something that is
neither an identifier nor a literal nor a closing parenthesis or bracket. -/
def ArrayStart (tokens : List Token) (index : ℕ) : Prop :=
  KindAt tokens index (.delimiter .leftBracket) ∧
    ∀ kind ∈ indexable, ¬ KindBefore tokens index kind

instance (tokens : List Token) (index : ℕ) : Decidable (ArrayStart tokens index) :=
  inferInstanceAs (Decidable (_ ∧ _))

/-- An array literal starts on the line. -/
def HoldsArray (tokens : List Token) : Prop :=
  ∃ index < tokens.length, ArrayStart tokens index

instance (tokens : List Token) : Decidable (HoldsArray tokens) :=
  inferInstanceAs (Decidable (∃ index < tokens.length, ArrayStart tokens index))

end Kinds

/-! ### The features of a line -/

section Features

variable {tokens : List Token} {token : Token} {test : Token → Bool} {kinds : List TokenKind}

/-- A test of keywords passes the tokens that are one of its words. -/
lemma Token.keyword?_any_iff {test : Keyword → Bool} (words : List Keyword)
    (htest : ∀ keyword, test keyword = decide (keyword ∈ words)) :
    token.keyword?.any test = true ↔ token.kind ∈ words.map .keyword := by
  rw [Token.keyword?]
  cases token.kind with
  | keyword keyword => simp [htest]
  | _ => simp

lemma Token.isBranchOrLoop_iff :
    token.keyword?.any Keyword.isBranchOrLoop = true ↔ token.kind ∈ branching :=
  Token.keyword?_any_iff [.if_, .while_, .for_] fun keyword => by cases keyword <;> rfl

lemma Token.isLoop_iff : token.keyword?.any Keyword.isLoop = true ↔ token.kind ∈ looping :=
  Token.keyword?_any_iff [.while_, .for_] fun keyword => by cases keyword <;> rfl

lemma Token.isAlternative_iff :
    token.keyword?.any Keyword.isAlternative = true ↔ token.kind ∈ alternative :=
  Token.keyword?_any_iff [.else_, .elseif] fun keyword => by cases keyword <;> rfl

lemma Token.isLogical_iff : token.isLogical = true ↔ token.kind ∈ logical := by
  rw [Token.isLogical, logical]
  cases token.kind with
  | keyword keyword => cases keyword <;> decide
  | operator operator => cases operator <;> decide
  | _ => simp

lemma Token.isArithmetic_iff : token.isArithmetic = true ↔ token.kind ∈ arithmetic := by
  rw [Token.isArithmetic, arithmetic]
  cases token.kind with
  | operator operator => cases operator <;> decide
  | _ => simp

lemma Token.isString_iff : token.isString = true ↔ token.kind ∈ strings := by
  rw [Token.isString, strings]
  cases token.kind with
  | literal closed => cases closed <;> decide
  | _ => simp

lemma Token.isIndexable_iff : token.isIndexable = true ↔ token.kind ∈ indexable := by
  rw [Token.isIndexable, indexable, List.mem_append, ← Token.isString_iff]
  simp only [Bool.or_eq_true, Token.isIdentifier_iff, Token.isDelimiter_iff, List.mem_cons,
    List.not_mem_nil, or_false]
  tauto

lemma any_eq_holds (htest : ∀ token, test token = true ↔ token.kind ∈ kinds) :
    tokens.any test = decide (Holds kinds tokens) := by
  rw [Bool.eq_iff_iff, List.any_eq_true, decide_eq_true_iff, Holds]
  simp only [htest]

lemma countP_eq_countOf (htest : ∀ token, test token = true ↔ token.kind ∈ kinds) :
    tokens.countP test = countOf kinds tokens :=
  List.countP_congr fun token _ => by rw [htest, decide_eq_true_iff]

/-- The calls of a line are its call sites. -/
lemma calls_length : (calls tokens).length = callSites tokens := by
  have hindices : (Site.ofTokens tokens).map Site.index = List.range tokens.length := by
    have hpairs := congrArg (List.map Prod.snd) (zipIdx_eq_map_ofTokens tokens)
    rw [List.zipIdx_map_snd, List.map_map] at hpairs
    rw [List.range_eq_range']
    exact hpairs.symm
  rw [calls, List.length_map, ← List.countP_eq_length_filter, callSites, ← hindices,
    List.countP_map]
  refine List.countP_congr fun site hsite => ?_
  rw [isCall_iff hsite, Function.comp_apply, decide_eq_true_iff, callSite_iff]

section Site

variable {site : Site} (hsite : site ∈ Site.ofTokens tokens)

include hsite

lemma isArrayStart_iff : site.isArrayStart = true ↔ ArrayStart tokens site.index := by
  rw [Site.isArrayStart, Bool.and_eq_true, Bool.not_eq_true', ← Bool.not_eq_true,
    before_any_mem_iff hsite fun _ => Token.isIndexable_iff, Token.isDelimiter_iff,
    ← kindAt_site_iff hsite, ArrayStart]
  push Not
  rfl

end Site

lemma any_isArrayStart : (Site.ofTokens tokens).any Site.isArrayStart =
    decide (HoldsArray tokens) := by
  rw [Bool.eq_iff_iff, List.any_eq_true, decide_eq_true_iff]
  constructor
  · rintro ⟨site, hsite, hstart⟩
    exact ⟨site.index, (List.getElem?_eq_some_iff.mp (mem_ofTokens_iff.mp hsite).1).1,
      (isArrayStart_iff hsite).mp hstart⟩
  · rintro ⟨index, hindex, hstart⟩
    obtain ⟨site, hsite, rfl, -⟩ := exists_site (List.getElem?_eq_getElem hindex)
    exact ⟨site, hsite, (isArrayStart_iff hsite).mpr hstart⟩

/-- The features of a line tell what is counted on it. -/
theorem LineFeatures.ofTokens_eq (tokens : List Token) : ofTokens tokens =
    { branches := decide (Holds branching tokens)
      loops := decide (Holds looping tokens)
      alternatives := decide (Holds alternative tokens)
      logical := countOf ScriptLint.logical tokens
      calls := callSites tokens
      arithmetic := countOf ScriptLint.arithmetic tokens
      declares := decide (Holds [.keyword .var] tokens)
      arrays := decide (HoldsArray tokens)
      strings := decide (Holds ScriptLint.strings tokens) } := by
  have hvar : ∀ token : Token, token.isKeyword .var = true ↔ token.kind ∈ [.keyword .var] := by
    intro token
    rw [Token.isKeyword_iff, List.mem_singleton]
  rw [ofTokens, any_eq_holds fun _ => Token.isBranchOrLoop_iff,
    any_eq_holds fun _ => Token.isLoop_iff, any_eq_holds fun _ => Token.isAlternative_iff,
    countP_eq_countOf fun _ => Token.isLogical_iff, calls_length,
    countP_eq_countOf fun _ => Token.isArithmetic_iff, any_eq_holds hvar, any_isArrayStart,
    any_eq_holds fun _ => Token.isString_iff]

end Features

/-! ### Costs as counts -/

/-- One for a line of the sort, nothing for another one. -/
def one (sort : Prop) [Decidable sort] : ℕ :=
  if sort then 1 else 0

lemma weightIf_halves (sort : Prop) [Decidable sort] (weight : ℕ) :
    weightIf (decide sort) weight = weight * one sort := by
  by_cases h : sort
  · rw [weightIf, decide_eq_true h, if_pos rfl, one, if_pos h, Nat.mul_one]
  · rw [weightIf, decide_eq_false h, if_neg Bool.false_ne_true, one, if_neg h, Nat.mul_zero]
    rfl

lemma weightTimes_halves (n weight : ℕ) : weightTimes n weight = weight * n :=
  Nat.mul_comm n weight

/-- The cost of a line in halves. -/
theorem lineCost_halves (tokens : List Token) :
    lineCost Weights.halves tokens =
      ⟨2 + 4 * one (Holds branching tokens) + 2 * one (Holds alternative tokens) +
          2 * countOf logical tokens + callSites tokens,
        2 + 4 * callSites tokens + countOf arithmetic tokens + 20 * one (Holds looping tokens),
        2 + 8 * one (Holds [.keyword .var] tokens) + 16 * one (HoldsArray tokens) +
          4 * one (Holds strings tokens)⟩ := by
  rw [lineCost, LineFeatures.ofTokens_eq, LineFeatures.cost]
  simp only [weightIf_halves, weightTimes_halves]
  show (⟨2 + 4 * one _ + 2 * one _ + 2 * countOf _ _ + 1 * callSites _,
    2 + 4 * callSites _ + 1 * countOf _ _ + 20 * one _,
    2 + 8 * one _ + 16 * one _ + 4 * one _⟩ : Metrics ℕ) = _
  rw [Nat.one_mul, Nat.one_mul]

/-- Costs in halves are added up, line by line. -/
lemma totalCost_eq_sums (lines : List (List Token)) :
    totalCost Weights.halves lines =
      ⟨(lines.map fun tokens => (lineCost Weights.halves tokens).complexity).sum,
        (lines.map fun tokens => (lineCost Weights.halves tokens).time).sum,
        (lines.map fun tokens => (lineCost Weights.halves tokens).memory).sum⟩ := by
  induction lines using List.reverseRecOn with
  | nil => rfl
  | append_singleton lines tokens ih =>
      rw [totalCost_concat, ih]
      simp only [List.map_append, List.sum_append, List.map_cons, List.map_nil, List.sum_singleton]
      rfl

lemma sum_map_one (sort : List Token → Prop) [DecidablePred sort] (lines : List (List Token)) :
    (lines.map fun tokens => one (sort tokens)).sum = lines.countP (fun tokens => sort tokens) := by
  induction lines with
  | nil => rfl
  | cons tokens rest ih =>
      rw [List.map_cons, List.sum_cons, ih, List.countP_cons, Nat.add_comm]
      simp only [one, decide_eq_true_eq]

lemma sum_map_countOf (kinds : List TokenKind) (lines : List (List Token)) :
    (lines.map (countOf kinds)).sum = countOf kinds lines.flatten := by
  rw [countOf, List.countP_flatten]
  rfl

/-- **Counts**: the cost of a script in halves. -/
theorem totalCost_halves (lines : List (List Token)) :
    totalCost Weights.halves lines =
      ⟨2 * lines.length + 4 * lines.countP (fun tokens => Holds branching tokens) +
          2 * lines.countP (fun tokens => Holds alternative tokens) +
          2 * countOf logical lines.flatten + (lines.map callSites).sum,
        2 * lines.length + 4 * (lines.map callSites).sum + countOf arithmetic lines.flatten +
          20 * lines.countP (fun tokens => Holds looping tokens),
        2 * lines.length + 8 * lines.countP (fun tokens => Holds [.keyword .var] tokens) +
          16 * lines.countP (fun tokens => HoldsArray tokens) +
          4 * lines.countP (fun tokens => Holds strings tokens)⟩ := by
  have hbase : (lines.map fun _ => 2).sum = 2 * lines.length := by
    rw [List.map_const', List.sum_replicate, smul_eq_mul, Nat.mul_comm]
  rw [totalCost_eq_sums]
  simp only [lineCost_halves, List.sum_map_add, List.sum_map_mul_left, sum_map_one, hbase,
    sum_map_countOf]

/-! ### Costs in doubles -/

open Doubles (InHalves)

/-- The metrics in doubles are these metrics in halves, as long as halves are exact. -/
structure Metrics.InHalves (a : Metrics Float) (b : Metrics ℕ) : Prop where
  complexity : Doubles.InHalves a.complexity b.complexity
  time : Doubles.InHalves a.time b.time
  memory : Doubles.InHalves a.memory b.memory

/-- Costs with the standard weights in doubles are costs in halves. -/
lemma costRelation_inHalves : CostRelation InHalves Weights.standard Weights.halves where
  zero := Doubles.inHalves_zero
  weight _ := Doubles.inHalves_half _
  times n weight := by
    have hbounds : ∀ weight ∈ Weight.all, 0 < weight.standardHalves ∧
        weight.standardHalves < 2 ^ 53 := by decide
    obtain ⟨hpos, hlt⟩ := hbounds weight (Weight.mem_all weight)
    exact fun h => Doubles.ofNat_mul_half hpos hlt h
  add hx hy := hx.add hy

/-- **Exactness**: costs in doubles are costs in halves, although each sum is rounded. -/
theorem totalCost_inHalves (lines : List (List Token)) :
    (totalCost Weights.standard lines).InHalves (totalCost Weights.halves lines) :=
  ⟨(costRelation_inHalves.total lines).complexity, (costRelation_inHalves.total lines).time,
    (costRelation_inHalves.total lines).memory⟩

/-! ### The metrics of a script -/

/-- The metrics of these lines: what they count, in halves. -/
structure CountsCosts (lines : List (List Token)) (performance : Metrics Float) : Prop where
  /-- The doubles are the counted halves, as long as these are fewer than 2 to the power of 53. -/
  exact : performance.InHalves (totalCost Weights.halves lines)
  complexity : (totalCost Weights.halves lines).complexity =
    2 * lines.length +
      4 * lines.countP (fun tokens =>
        Holds [.keyword .if_, .keyword .while_, .keyword .for_] tokens) +
      2 * lines.countP (fun tokens => Holds [.keyword .else_, .keyword .elseif] tokens) +
      2 * countOf [.keyword .and_, .keyword .or_, .keyword .not_, .operator .bothOf,
        .operator .eitherOf, .operator .negation] lines.flatten +
      (lines.map callSites).sum
  time : (totalCost Weights.halves lines).time =
    2 * lines.length + 4 * (lines.map callSites).sum +
      countOf [.operator .plus, .operator .minus, .operator .times, .operator .divide,
        .operator .remainder] lines.flatten +
      20 * lines.countP (fun tokens => Holds [.keyword .while_, .keyword .for_] tokens)
  memory : (totalCost Weights.halves lines).memory =
    2 * lines.length + 8 * lines.countP (fun tokens => Holds [.keyword .var] tokens) +
      16 * lines.countP (fun tokens => HoldsArray tokens) +
      4 * lines.countP (fun tokens => Holds [.literal true, .literal false] tokens)
  /-- The names that count as called are those that the check of calls looks up. -/
  callSites_eq : ∀ tokens ∈ lines, callSites tokens =
    ((Checker.calls Functions.empty).examined tokens).length
  perm : ∀ other, lines.Perm other →
    totalCost Weights.halves other = totalCost Weights.halves lines
  append : ∀ late, totalCost Weights.halves (lines ++ late) =
    (totalCost Weights.halves lines).add (totalCost Weights.halves late)
  eq_zero_iff : totalCost Weights.halves lines = ⟨0, 0, 0⟩ ↔ lines = []

/-- **The cost of a script**: with the standard weights, the metrics that are reported count what
stands on the lines that hold code. They do not depend on the order of the lines, are added up
over parts of a script, and are zero only of a script without code. -/
theorem performance_counts (analyzer : Analyzer)
    (hweights : analyzer.settings.weights = Weights.standard) (source : String) :
    CountsCosts ((SourceLine.scan analyzer.settings.markers source.toList).map Token.ofLine)
      (analyzer.analyze source).performance where
  exact := by
    have hperformance : (analyzer.analyze source).performance =
        totalCost analyzer.settings.weights
          ((SourceLine.scan analyzer.settings.markers source.toList).map Token.ofLine) := by
      show totalCost analyzer.settings.weights ((TokenLine.ofSource _ _).map TokenLine.tokens) = _
      rw [TokenLine.ofSource, List.map_map]
      rfl
    rw [hperformance, hweights]
    exact totalCost_inHalves _
  complexity := by
    rw [totalCost_halves]
    rfl
  time := by
    rw [totalCost_halves]
    rfl
  memory := by
    rw [totalCost_halves]
    rfl
  callSites_eq tokens _ := by
    rw [← calls_length, calls, Checker.examined, List.length_map, List.length_map]
  perm other hperm := by
    rw [totalCost_eq_sums, totalCost_eq_sums, (hperm.map _).sum_eq, (hperm.map _).sum_eq,
      (hperm.map _).sum_eq]
  append late := by
    rw [totalCost_eq_sums, totalCost_eq_sums, totalCost_eq_sums]
    simp only [List.map_append, List.sum_append]
    rfl
  eq_zero_iff := by
    constructor
    · intro hzero
      rw [totalCost_halves, Metrics.mk.injEq] at hzero
      exact List.length_eq_zero_iff.mp (by omega)
    · intro hnil
      rw [hnil]
      rfl

/-- Four lines with a loop, a call, a logical word, a sum and an array literal. -/
theorem performance_counts_loop :
    Analyzer.standard.settings.weights = Weights.standard ∧
    (Analyzer.standard.analyze
      "var list = [1]\nwhile n < 3 and Max(n, 1) > 0\n  n = n + 1\nendwhile").performance =
        ⟨Doubles.half 15, Doubles.half 33, Doubles.half 32⟩ := by
  have hcounts := performance_counts Analyzer.standard rfl
    "var list = [1]\nwhile n < 3 and Max(n, 1) > 0\n  n = n + 1\nendwhile"
  have hhalves : totalCost Weights.halves
      ((SourceLine.scan Analyzer.standard.settings.markers
        "var list = [1]\nwhile n < 3 and Max(n, 1) > 0\n  n = n + 1\nendwhile".toList).map
          Token.ofLine) = ⟨15, 33, 32⟩ := by
    rw [totalCost_halves, Metrics.mk.injEq]
    decide +kernel
  obtain ⟨hcomplexity, htime, hmemory⟩ := hhalves ▸ hcounts.exact
  rw [← hcomplexity (by decide), ← htime (by decide), ← hmemory (by decide)]
  exact ⟨rfl, rfl⟩

end ScriptLint
