import Mathlib
import ScriptLint.Proofs.Cost.Counts
import ScriptLint.Proofs.Cost.Rounding
import ScriptLint.Proofs.Report.Record
import ScriptLint.Proofs.Settings.Demands
import ScriptLint.Proofs.Text.Endings

/-!
Whether the metrics of a script stay in the range of doubles.

* `Weights.exact`: the weights as rational numbers, with costs that are never rounded.
* `AllInRange`: what doubles can hold of exact costs, in the order of metrics one by one.
* `lineCost_le_total`, `totalCost_mono`: exact costs only grow along a script.
* `totalCost_rounded`: a total in doubles is the exact one, rounded so many times at most.
* `Analyzer.length_codeLine_le`: a line has no more tokens than its script has characters.
* `RangeKept`, `metrics_rangeKept`: **range**, from the exact total alone.
-/

namespace ScriptLint

open Doubles

/-! ### Exact costs -/

/-- Costs that are not rounded are rational numbers. -/
instance : CostNumber ℚ := ⟨fun n => n⟩

/-- The weights as rational numbers. -/
def Weights.exact (weights : Weights Float) : Weights ℚ :=
  ⟨fun weight => valueOf (weights.value weight)⟩

namespace Metrics

/-- Exact metrics are compared one by one. -/
instance : Preorder (Metrics ℚ) where
  le := Related (· ≤ ·)
  le_refl _ := ⟨le_rfl, le_rfl, le_rfl⟩
  le_trans _ _ _ hab hbc := ⟨hab.complexity.trans hbc.complexity, hab.time.trans hbc.time,
    hab.memory.trans hbc.memory⟩

/-- The greatest metrics that doubles can hold. -/
def greatest : Metrics ℚ :=
  ⟨largest, largest, largest⟩

variable {a b : Metrics ℚ}

lemma zero_exact : (zero : Metrics ℚ) = ⟨0, 0, 0⟩ := by
  rw [zero]
  exact congrArg (fun q => (⟨q, q, q⟩ : Metrics ℚ)) Nat.cast_zero

lemma le_add_left (hb : zero ≤ b) : a ≤ a.add b where
  complexity := le_add_of_nonneg_right (by exact_mod_cast hb.complexity)
  time := le_add_of_nonneg_right (by exact_mod_cast hb.time)
  memory := le_add_of_nonneg_right (by exact_mod_cast hb.memory)

lemma le_add_right (ha : zero ≤ a) : b ≤ a.add b where
  complexity := le_add_of_nonneg_left (by exact_mod_cast ha.complexity)
  time := le_add_of_nonneg_left (by exact_mod_cast ha.time)
  memory := le_add_of_nonneg_left (by exact_mod_cast ha.memory)

end Metrics

section Exact

variable {weights : Weights ℚ} {early lines : List (List Token)} {tokens : List Token}

/-- Nothing that is added up is negative. -/
lemma costRelation_exact (hweights : ∀ weight, 0 ≤ weights.value weight) :
    CostRelation (fun (q _ : ℚ) => 0 ≤ q) weights weights where
  zero := le_of_eq Nat.cast_zero.symm
  weight := hweights
  times n weight := Left.mul_nonneg n.cast_nonneg (hweights weight)
  add hq hr := Left.add_nonneg hq hr

/-- No exact cost of a line is negative. -/
lemma zero_le_lineCost (hweights : ∀ weight, 0 ≤ weights.value weight) (tokens : List Token) :
    Metrics.zero ≤ lineCost weights tokens := by
  obtain ⟨hcomplexity, htime, hmemory⟩ := (costRelation_exact hweights).line tokens
  rw [Metrics.zero_exact]
  exact ⟨hcomplexity, htime, hmemory⟩

/-- No exact total is negative. -/
lemma zero_le_totalCost (hweights : ∀ weight, 0 ≤ weights.value weight)
    (lines : List (List Token)) : Metrics.zero ≤ totalCost weights lines := by
  obtain ⟨hcomplexity, htime, hmemory⟩ := (costRelation_exact hweights).total lines
  rw [Metrics.zero_exact]
  exact ⟨hcomplexity, htime, hmemory⟩

/-- **Running totals** only grow. -/
lemma totalCost_mono (hweights : ∀ weight, 0 ≤ weights.value weight) (h : early <+: lines) :
    totalCost weights early ≤ totalCost weights lines := by
  obtain ⟨late, rfl⟩ := h
  induction late using List.reverseRecOn with
  | nil => rw [List.append_nil]
  | append_singleton late tokens ih =>
      rw [← List.append_assoc, totalCost_concat]
      exact ih.trans (Metrics.le_add_left (zero_le_lineCost hweights tokens))

/-- No line costs more than the script. -/
lemma lineCost_le_total (hweights : ∀ weight, 0 ≤ weights.value weight) (h : tokens ∈ lines) :
    lineCost weights tokens ≤ totalCost weights lines := by
  obtain ⟨front, back, rfl⟩ := List.append_of_mem h
  have hearly : front ++ [tokens] <+: front ++ tokens :: back :=
    ⟨back, by rw [List.append_assoc, List.singleton_append]⟩
  refine le_trans ?_ (totalCost_mono hweights hearly)
  rw [totalCost_concat]
  exact Metrics.le_add_right (zero_le_totalCost hweights front)

/-- Every cost of a line and every running total can be held by doubles. -/
structure AllInRange (weights : Weights ℚ) (lines : List (List Token)) : Prop where
  line : ∀ tokens ∈ lines, lineCost weights tokens ≤ .greatest
  running : ∀ early, early <+: lines → totalCost weights early ≤ .greatest

lemma allInRange_iff (hweights : ∀ weight, 0 ≤ weights.value weight) :
    AllInRange weights lines ↔ totalCost weights lines ≤ .greatest := by
  constructor
  · intro h
    exact h.running lines List.prefix_rfl
  · intro h
    exact ⟨fun tokens htokens => (lineCost_le_total hweights htokens).trans h,
      fun early hearly => (totalCost_mono hweights hearly).trans h⟩

end Exact

/-! ### Costs in doubles -/

section Rounded

variable {weights : Weights Float} {a b : Metrics Float} {q r : Metrics ℚ} {k l : ℕ}
  {tokens : List Token} {lines : List (List Token)}

/-- Each weight is finite and not negative. -/
def Weights.Usable (weights : Weights Float) : Prop :=
  ∀ weight, IsUsable (weights.value weight)

lemma Weights.Usable.valued (h : weights.Usable) (weight : Weight) :
    Valued (weights.value weight).toModel.unpack (weights.exact.value weight) :=
  valued_of_usable (h weight).1 (h weight).2

lemma Weights.Usable.exact_nonneg (h : weights.Usable) (weight : Weight) :
    0 ≤ weights.exact.value weight :=
  (h.valued weight).nonneg

lemma Metrics.Related.mono_rounded (h : a.Related (Rounded k) q) (hle : k ≤ l) :
    a.Related (Rounded l) q where
  complexity := h.complexity.mono hle
  time := h.time.mono hle
  memory := h.memory.mono hle

lemma Metrics.Related.add_rounded (ha : a.Related (Rounded k) q) (hb : b.Related (Rounded k) r) :
    (a.add b).Related (Rounded (k + 1)) (q.add r) where
  complexity := ha.complexity.add hb.complexity
  time := ha.time.add hb.time
  memory := ha.memory.add hb.memory

lemma Metrics.Related.heldWithin (h : a.Related (Rounded k) q) : a.Related (HeldWithin k) q where
  complexity := h.complexity.heldWithin
  time := h.time.heldWithin
  memory := h.memory.heldWithin

lemma weightIf_rounded (h : weights.Usable) (present : Bool) (weight : Weight) :
    Rounded 0 (weightIf present (weights.value weight))
      (weightIf present (weights.exact.value weight)) := by
  cases present with
  | true => exact (h.valued weight).rounded
  | false => exact valued_ofNat_zero.rounded

/-- A line calls no more names than it has tokens. -/
lemma calls_length_le (tokens : List Token) : (calls tokens).length ≤ tokens.length := by
  rw [calls_length, callSites]
  exact List.countP_le_length.trans_eq List.length_range

/-- The cost of a line is rounded five times at most on the way to each metric. -/
lemma lineCost_rounded (h : weights.Usable) (htokens : tokens.length * growth ≤ largest) :
    (lineCost weights tokens).Related (Rounded 5) (lineCost weights.exact tokens) := by
  have hbase := fun weight => (h.valued weight).rounded
  have hif := weightIf_rounded h
  have hcount : ∀ {n : ℕ}, n ≤ tokens.length → n * growth ≤ largest := fun hle =>
    (mul_le_mul_of_nonneg_right (by exact_mod_cast hle)
      growth_nonneg).trans htokens
  have hlogical := hcount (List.countP_le_length (p := Token.isLogical))
  have harithmetic := hcount (List.countP_le_length (p := Token.isArithmetic))
  have hcalls := hcount (calls_length_le tokens)
  have htimes : ∀ {n : ℕ} (weight : Weight), n * growth ≤ largest →
      Rounded 2 (weightTimes n (weights.value weight))
        (weightTimes n (weights.exact.value weight)) :=
    fun weight hn => (h.valued weight).rounded_mul hn
  exact {
    complexity := ((((hbase _).add (hif _ _)).add ((hif _ _).mono (by decide))).add
      (htimes _ hlogical)).add ((htimes _ hcalls).mono (by decide)) |>.mono (by decide)
    time := ((((hbase _).mono (by decide)).add (htimes _ hcalls)).add
      ((htimes _ harithmetic).mono (by decide))).add ((hif _ _).mono (by decide))
    memory := ((((hbase _).add (hif _ _)).add ((hif _ _).mono (by decide))).add
      ((hif _ _).mono (by decide))).mono (by decide) }

/-- **Totals** are rounded once more for each line. -/
theorem totalCost_rounded (h : weights.Usable)
    (hlines : ∀ tokens ∈ lines, tokens.length * growth ≤ largest) :
    (totalCost weights lines).Related (Rounded (lines.length + 5))
      (totalCost weights.exact lines) := by
  induction lines using List.reverseRecOn with
  | nil =>
      have hzero : Rounded 5 (Float.ofNat 0) (0 : ℕ) := valued_ofNat_zero.rounded.mono (by decide)
      exact ⟨hzero, hzero, hzero⟩
  | append_singleton lines tokens ih =>
      have hsteps : (lines ++ [tokens]).length + 5 = lines.length + 5 + 1 := by
        rw [List.length_append, List.length_singleton]
      have hline := lineCost_rounded h (hlines tokens (by simp))
      have hbefore := ih fun other hother => hlines other (List.mem_append_left _ hother)
      rw [totalCost_concat, totalCost_concat, hsteps]
      exact hbefore.add_rounded (hline.mono_rounded (by omega))

end Rounded

/-! ### The metrics of a script -/

namespace Analyzer

variable (analyzer : Analyzer) (source : String)

/-- The tokens on the lines of a script that hold code. -/
def codeLines : List (List Token) :=
  (SourceLine.scan analyzer.settings.markers source.toList).map Token.ofLine

/-- What the script costs, without rounding. -/
def exactTotal : Metrics ℚ :=
  totalCost analyzer.settings.weights.exact (analyzer.codeLines source)

/-- **Length**: a line has no more tokens than its script has characters. -/
lemma length_codeLine_le {tokens : List Token} (h : tokens ∈ analyzer.codeLines source) :
    tokens.length ≤ source.length := by
  obtain ⟨line, hline, rfl⟩ := List.mem_map.mp h
  obtain ⟨index, physical, hphysical, -, hlies⟩ := SourceLine.exists_liesIn_of_scanFrom hline
  calc (Token.ofLine line).length ≤ line.text.length := (Token.reads_read _ _ _).length_le
    _ ≤ physical.length := hlies.length_text_le
    _ ≤ (Text.unifyEndings source.toList).length :=
        Text.length_le_of_mem_physicalLines (List.mem_of_getElem? hphysical)
    _ ≤ source.toList.length := Text.length_unifyEndings_le _
    _ = source.length := String.length_toList

lemma performance_eq : (analyzer.analyze source).performance =
    totalCost analyzer.settings.weights (analyzer.codeLines source) := by
  show totalCost analyzer.settings.weights ((TokenLine.ofSource _ _).map TokenLine.tokens) = _
  rw [TokenLine.ofSource, List.map_map]
  rfl

lemma usable_weights : analyzer.settings.weights.Usable :=
  fun weight => Settings.isUsable_weight analyzer.accepted weight

end Analyzer

/-! ### Numbers in reports -/

/-- A double is written as a number exactly if it is finite. -/
lemma Json.exists_number_iff (x : Float) :
    (∃ number, Json.ofFloat x = .number number) ↔ x.isFinite = true := by
  constructor
  · rintro ⟨number, hnumber⟩
    rw [ofFloat] at hnumber
    split at hnumber
    case h_1 hexact => exact isFinite_of_exact hexact
    case h_2 => cases hnumber
  · intro hfinite
    obtain ⟨negative, m, e, hexact⟩ := exists_exact hfinite
    rw [ofFloat, hexact]
    exact ⟨_, rfl⟩

/-- The record of the metrics carries three numbers. -/
def Metrics.CarriesNumbers (metrics : Metrics Float) : Prop :=
  ∃ complexity time memory : Json.Number, metricsJson metrics = .object
    [("complexity", .number complexity), ("estimatedExecutionTime", .number time),
      ("estimatedMemoryUsage", .number memory)]

lemma Metrics.carriesNumbers_iff (metrics : Metrics Float) :
    metrics.CarriesNumbers ↔ metrics.AllFinite := by
  rw [AllFinite, ← Json.exists_number_iff, ← Json.exists_number_iff, ← Json.exists_number_iff]
  constructor
  · rintro ⟨complexity, time, memory, hjson⟩
    rw [metricsJson_eq] at hjson
    simp only [Json.object.injEq, List.cons.injEq, Prod.mk.injEq, true_and, and_true] at hjson
    exact ⟨⟨_, hjson.1⟩, ⟨_, hjson.2.1⟩, ⟨_, hjson.2.2⟩⟩
  · rintro ⟨⟨complexity, hcomplexity⟩, ⟨time, htime⟩, ⟨memory, hmemory⟩⟩
    exact ⟨complexity, time, memory, by rw [metricsJson_eq, hcomplexity, htime, hmemory]⟩

/-! ### Range -/

/-- Counts that fit into 64 bits are far below the largest double. -/
lemma mul_growth_le_largest {n : ℕ} (h : n < UInt64.size) : n * growth ≤ largest := by
  have hn : (n : ℚ) ≤ 2 ^ 64 := by exact_mod_cast h.le
  have hgrowth : growth ≤ 2 := by norm_num [growth]
  calc (n : ℚ) * growth ≤ 2 ^ 64 * 2 := mul_le_mul hn hgrowth
        growth_nonneg (by positivity)
    _ = 2 ^ (65 : ℤ) := by norm_num
    _ ≤ 2 ^ (971 : ℤ) := zpow_le_zpow_right₀ one_le_two (by decide)
    _ ≤ largest := le_mul_of_one_le_left (by positivity) (by norm_num)

/-- Metrics, each times the same factor. -/
def Metrics.scaled (factor : ℚ) (a : Metrics ℚ) : Metrics ℚ :=
  ⟨a.complexity * factor, a.time * factor, a.memory * factor⟩

/-- A sum of metrics is finite only if its first part is. -/
lemma Metrics.allFinite_of_add {a b : Metrics Float} (h : (a.add b).AllFinite) : a.AllFinite :=
  ⟨(isFinite_of_add h.1).1, (isFinite_of_add h.2.1).1, (isFinite_of_add h.2.2).1⟩

/-- An overflow is never undone. -/
lemma allFinite_of_prefix {weights : Weights Float} {early lines : List (List Token)}
    (hearly : early <+: lines) (h : (totalCost weights lines).AllFinite) :
    (totalCost weights early).AllFinite := by
  obtain ⟨late, rfl⟩ := hearly
  induction late using List.reverseRecOn with
  | nil => rwa [List.append_nil] at h
  | append_singleton late tokens ih =>
      rw [← List.append_assoc, totalCost_concat] at h
      exact ih (Metrics.allFinite_of_add h)

/-- What the exact costs of a script tell of the metrics that are reported. -/
structure RangeKept (analyzer : Analyzer) (source : String) : Prop where
  /-- No exact cost is negative, and no line costs more than the script. -/
  line : ∀ tokens ∈ analyzer.codeLines source,
    Metrics.zero ≤ lineCost analyzer.settings.weights.exact tokens ∧
      lineCost analyzer.settings.weights.exact tokens ≤ analyzer.exactTotal source
  /-- Exact running totals only grow. -/
  running : ∀ early late, early <+: late → late <+: analyzer.codeLines source →
    totalCost analyzer.settings.weights.exact early ≤
      totalCost analyzer.settings.weights.exact late
  /-- So all of them can be held by doubles exactly if the last total can. -/
  allInRange_iff : AllInRange analyzer.settings.weights.exact (analyzer.codeLines source) ↔
    analyzer.exactTotal source ≤ .greatest
  /-- Rounding changes a total by a factor at most, and if there is room for it the total is
  finite. -/
  rounded : source.length < UInt64.size → (analyzer.analyze source).performance.Related
    (HeldWithin ((analyzer.codeLines source).length + 5)) (analyzer.exactTotal source)
  /-- If there is room in all three, the record of the metrics carries three numbers. -/
  reported : source.length < UInt64.size →
    (analyzer.exactTotal source).scaled (growth ^ ((analyzer.codeLines source).length + 5)) ≤
      .greatest →
    (analyzer.analyze source).performance.CarriesNumbers
  /-- It does not carry them, if a total is beyond what rounding could bring back. -/
  lost : source.length < UInt64.size →
    (analyzer.analyze source).performance.CarriesNumbers →
    (analyzer.exactTotal source).scaled (decay ^ ((analyzer.codeLines source).length + 5)) ≤
      .greatest
  /-- It carries them exactly if the three sums of doubles are finite, and then each running total
  is. -/
  carriesNumbers_iff : (analyzer.analyze source).performance.CarriesNumbers ↔
    ∀ early, early <+: analyzer.codeLines source →
      (totalCost analyzer.settings.weights early).AllFinite

/-- **Range**: settings that break no rule bound single weights only, so metrics can leave the range
of doubles. They stay in it as long as the exact totals do, with some room for rounding. -/
theorem metrics_rangeKept (analyzer : Analyzer) (source : String) :
    RangeKept analyzer source := by
  have husable := analyzer.usable_weights
  have hexact := husable.exact_nonneg
  have hrounded : source.length < UInt64.size → (analyzer.analyze source).performance.Related
      (Rounded ((analyzer.codeLines source).length + 5)) (analyzer.exactTotal source) := by
    intro hlength
    rw [analyzer.performance_eq]
    exact totalCost_rounded husable fun tokens htokens => mul_growth_le_largest
      ((analyzer.length_codeLine_le source htokens).trans_lt hlength)
  have hnumbers := Metrics.carriesNumbers_iff (analyzer.analyze source).performance
  exact {
    line := fun tokens htokens =>
      ⟨zero_le_lineCost hexact tokens, lineCost_le_total hexact htokens⟩
    running := fun early late hearly _ => totalCost_mono hexact hearly
    allInRange_iff := allInRange_iff hexact
    rounded := fun hlength => (hrounded hlength).heldWithin
    reported := fun hlength hle => by
      obtain ⟨hcomplexity, htime, hmemory⟩ := hrounded hlength
      exact hnumbers.mpr ⟨hcomplexity.isFinite hle.complexity, htime.isFinite hle.time,
        hmemory.isFinite hle.memory⟩
    lost := fun hlength hcarries => by
      obtain ⟨hcomplexity, htime, hmemory⟩ := hrounded hlength
      obtain ⟨hcomplexity', htime', hmemory'⟩ := hnumbers.mp hcarries
      exact ⟨hcomplexity.le_largest hcomplexity', htime.le_largest htime',
        hmemory.le_largest hmemory'⟩
    carriesNumbers_iff := by
      rw [hnumbers, analyzer.performance_eq]
      exact ⟨fun h early hearly => allFinite_of_prefix hearly h,
        fun h => h _ List.prefix_rfl⟩ }

/-- Two calls under the standard settings leave room enough. -/
theorem metrics_rangeKept_two_calls :
    Analyzer.standard.exactTotal "Buy()\nBuy()" = ⟨3, 6, 2⟩ ∧
      (Analyzer.standard.analyze "Buy()\nBuy()").performance.CarriesNumbers := by
  have hkept := metrics_rangeKept Analyzer.standard "Buy()\nBuy()"
  have htotal : Analyzer.standard.exactTotal "Buy()\nBuy()" = ⟨3, 6, 2⟩ := by
    rw [Metrics.mk.injEq]
    decide +kernel
  refine ⟨htotal, hkept.reported (by decide) ?_⟩
  rw [htotal]
  refine ⟨?_, ?_, ?_⟩ <;> decide +kernel

/-- The standard settings, but with a great weight for the memory of each line. -/
def Analyzer.heavy : Analyzer where
  settings := { Settings.standard with weights := Weights.standard.set .memoryBase 1e308 }
  accepted := by decide +kernel

/-- Two lines under this weight leave the range of doubles: the exact total is beyond the largest
one, the sum of doubles is infinite, and no number stands for it in the record. -/
theorem heavy_leaves_range :
    Analyzer.heavy.settings.violation? = none ∧
      ¬ AllInRange Analyzer.heavy.settings.weights.exact (Analyzer.heavy.codeLines "Buy()\nBuy()") ∧
      ¬ (Analyzer.heavy.analyze "Buy()\nBuy()").performance.AllFinite ∧
      Json.ofFloat (Analyzer.heavy.analyze "Buy()\nBuy()").performance.memory = .null := by
  have hexact : ¬ (Analyzer.heavy.exactTotal "Buy()\nBuy()").memory ≤ largest := by
    decide +kernel
  have hinfinite : Decimal.Exact.ofFloat
      (totalCost Analyzer.heavy.settings.weights (Analyzer.heavy.codeLines "Buy()\nBuy()")).memory =
        .infinite false := by decide +kernel
  refine ⟨Analyzer.heavy.accepted, fun h => ?_, ?_, ?_⟩
  · exact hexact (h.running _ List.prefix_rfl).memory
  · rw [Analyzer.performance_eq]
    decide +kernel
  · rw [Analyzer.performance_eq, Json.ofFloat, hinfinite]

end ScriptLint
