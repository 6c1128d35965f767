import Mathlib
import ScriptLint.Cost
import ScriptLint.Proofs.Cost.Doubles

/-!
The cost of a script with the standard weights.

* `Metrics.Nonneg`, `Metrics.AtMost`: the signs and the order of metrics, one by one.
* `CostRelation`: a relation of two arithmetics that sums keep; costs are related by it.
* `nonneg_lineCost`, `nonneg_totalCost`: no cost is negative.
* `totalCost_append`: a script with more lines at its end costs no less, although each sum
  is rounded.
-/

namespace ScriptLint

namespace Metrics

/-- No metric is negative. -/
structure Nonneg (a : Metrics Float) : Prop where
  complexity : 0 ≤ a.complexity
  time : 0 ≤ a.time
  memory : 0 ≤ a.memory

/-- No metric of the one is greater than that of the other. -/
structure AtMost (a b : Metrics Float) : Prop where
  complexity : a.complexity ≤ b.complexity
  time : a.time ≤ b.time
  memory : a.memory ≤ b.memory

variable {a b c : Metrics Float}

lemma Nonneg.add (ha : a.Nonneg) (hb : b.Nonneg) : (a.add b).Nonneg where
  complexity := Doubles.add_nonneg ha.complexity hb.complexity
  time := Doubles.add_nonneg ha.time hb.time
  memory := Doubles.add_nonneg ha.memory hb.memory

lemma Nonneg.atMost_add (ha : a.Nonneg) (hb : b.Nonneg) : a.AtMost (a.add b) where
  complexity := Doubles.le_add ha.complexity hb.complexity
  time := Doubles.le_add ha.time hb.time
  memory := Doubles.le_add ha.memory hb.memory

lemma Nonneg.atMost_self (ha : a.Nonneg) : a.AtMost a where
  complexity := Doubles.le_refl ha.complexity
  time := Doubles.le_refl ha.time
  memory := Doubles.le_refl ha.memory

lemma AtMost.trans (ha : a.Nonneg) (hb : b.Nonneg) (hc : c.Nonneg) (hab : a.AtMost b)
    (hbc : b.AtMost c) : a.AtMost c where
  complexity :=
    Doubles.le_trans ha.complexity hb.complexity hc.complexity hab.complexity hbc.complexity
  time := Doubles.le_trans ha.time hb.time hc.time hab.time hbc.time
  memory := Doubles.le_trans ha.memory hb.memory hc.memory hab.memory hbc.memory

end Metrics

/-! ### Costs in two arithmetics -/

/-- A relation of metrics, one by one. -/
structure Metrics.Related {α β : Type} (rel : α → β → Prop) (a : Metrics α) (b : Metrics β) :
    Prop where
  complexity : rel a.complexity b.complexity
  time : rel a.time b.time
  memory : rel a.memory b.memory

/-- A line at the end of a script is added to its total. -/
lemma totalCost_concat {α : Type} [CostNumber α] (weights : Weights α)
    (lines : List (List Token)) (tokens : List Token) :
    totalCost weights (lines ++ [tokens]) =
      (totalCost weights lines).add (lineCost weights tokens) := by
  rw [totalCost, List.foldl_append]
  rfl

/-- A relation of two arithmetics that holds of weights, counted or not, and is kept by sums. -/
structure CostRelation {α β : Type} [CostNumber α] [CostNumber β] (rel : α → β → Prop)
    (weights : Weights α) (weights' : Weights β) : Prop where
  zero : rel (CostNumber.ofCount 0) (CostNumber.ofCount 0)
  weight : ∀ weight, rel (weights.value weight) (weights'.value weight)
  times : ∀ n weight,
    rel (weightTimes n (weights.value weight)) (weightTimes n (weights'.value weight))
  add : ∀ {a b c d}, rel a b → rel c d → rel (a + c) (b + d)

namespace CostRelation

variable {α β : Type} [CostNumber α] [CostNumber β] {rel : α → β → Prop} {weights : Weights α}
  {weights' : Weights β}

lemma ofPresent (h : CostRelation rel weights weights') (present : Bool) (weight : Weight) :
    rel (weightIf present (weights.value weight)) (weightIf present (weights'.value weight)) := by
  cases present with
  | true => exact h.weight weight
  | false => exact h.zero

/-- It holds of the cost of a line. -/
lemma line (h : CostRelation rel weights weights') (tokens : List Token) :
    (lineCost weights tokens).Related rel (lineCost weights' tokens) where
  complexity := h.add (h.add (h.add (h.add (h.weight _) (h.ofPresent _ _)) (h.ofPresent _ _))
    (h.times _ _)) (h.times _ _)
  time := h.add (h.add (h.add (h.weight _) (h.times _ _)) (h.times _ _)) (h.ofPresent _ _)
  memory := h.add (h.add (h.add (h.weight _) (h.ofPresent _ _)) (h.ofPresent _ _))
    (h.ofPresent _ _)

/-- It holds of totals. -/
lemma total (h : CostRelation rel weights weights') (lines : List (List Token)) :
    (totalCost weights lines).Related rel (totalCost weights' lines) := by
  induction lines using List.reverseRecOn with
  | nil => exact ⟨h.zero, h.zero, h.zero⟩
  | append_singleton lines tokens ih =>
      have hline := h.line tokens
      rw [totalCost_concat, totalCost_concat]
      exact ⟨h.add ih.complexity hline.complexity, h.add ih.time hline.time,
        h.add ih.memory hline.memory⟩

end CostRelation

/-! ### Signs -/

/-- The standard weights are positive and finite. -/
lemma Weights.standard_bounds (weight : Weight) :
    0 < standard.value weight ∧ (standard.value weight).isFinite = true := by
  have hall : ∀ weight ∈ Weight.all,
      0 < standard.value weight ∧ (standard.value weight).isFinite = true := by
    decide +kernel
  exact hall weight (Weight.mem_all weight)

/-- With the standard weights, nothing that is added up is negative. -/
lemma costRelation_nonneg :
    CostRelation (fun (x _ : Float) => 0 ≤ x) Weights.standard Weights.standard where
  zero := Doubles.ofNat_nonneg 0
  weight weight := Doubles.nonneg_of_pos (Weights.standard_bounds weight).1
    (Weights.standard_bounds weight).2
  times n weight := Doubles.mul_nonneg (Doubles.ofNat_nonneg n) (Weights.standard_bounds weight).1
    (Weights.standard_bounds weight).2
  add hx hy := Doubles.add_nonneg hx hy

/-- No cost of a line is negative. -/
lemma nonneg_lineCost (tokens : List Token) : (lineCost Weights.standard tokens).Nonneg :=
  ⟨(costRelation_nonneg.line tokens).complexity, (costRelation_nonneg.line tokens).time,
    (costRelation_nonneg.line tokens).memory⟩

/-- No total is negative. -/
lemma nonneg_totalCost (lines : List (List Token)) :
    (totalCost Weights.standard lines).Nonneg :=
  ⟨(costRelation_nonneg.total lines).complexity, (costRelation_nonneg.total lines).time,
    (costRelation_nonneg.total lines).memory⟩

/-! ### Scripts -/

/-- **Totals**: a script with more lines at its end costs no less. -/
theorem totalCost_append (early late : List (List Token)) :
    (totalCost Weights.standard early).AtMost
      (totalCost Weights.standard (early ++ late)) := by
  induction late using List.reverseRecOn with
  | nil =>
      rw [List.append_nil]
      exact (nonneg_totalCost early).atMost_self
  | append_singleton late tokens ih =>
      have hshort := nonneg_totalCost (early ++ late)
      have hline := nonneg_lineCost tokens
      rw [← List.append_assoc, totalCost_concat]
      exact ih.trans (nonneg_totalCost early) hshort (hshort.add hline)
        (hshort.atMost_add hline)

end ScriptLint
