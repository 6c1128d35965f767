import Mathlib
import ScriptLint.Decimal.Shortest
import ScriptLint.Proofs.Cost.Doubles

/-!
Correct rounding: the double that a fraction is nearest to.

* `HalfEven`, `Marks`: the nearest natural number, and what a mantissa with its two bits
  tells of a fraction (`Marks.shiftRight`, `Marks.quotient`, `Marks.roundedMantissa_eq`).
* `RoundsTo`: the numbers that round to the double `mantissa · 2 ^ exponent`, ends and the
  binade below a power of two included.
* `roundWithAccuracy_eq_of_roundsTo`: rounding a number that rounds to a double gives it.
* `round_eq_of_roundsTo`, `mul_eq_of_roundsTo`, `div_eq_of_roundsTo`: so do the operations
  that round an exact result.
-/

namespace ScriptLint.Decimal

open Float.Model Float.Model.UnpackedFloat

/-! ### Half to even -/

/-- The natural number nearest to a fraction, the even one of two. -/
structure HalfEven (x : ℚ) (n : ℕ) : Prop where
  le : 2 * (n : ℚ) ≤ 2 * x + 1
  ge : 2 * x ≤ 2 * n + 1
  even : 2 * (n : ℚ) = 2 * x + 1 ∨ 2 * x = 2 * n + 1 → n % 2 = 0

/-- A mantissa with its two bits tells where a fraction lies: the whole part, whether a half
is reached, and whether anything is left over. -/
structure Marks (extended : ExtendedMantissa) (x : ℚ) : Prop where
  le : (extended.mantissa : ℚ) ≤ x
  lt : x < extended.mantissa + 1
  round : extended.roundBit = true ↔ (extended.mantissa : ℚ) + 1 / 2 ≤ x
  sticky : extended.stickyBit = false ↔
    x = extended.mantissa + if extended.roundBit then 1 / 2 else 0

namespace Marks

variable {extended : ExtendedMantissa} {x : ℚ}

/-- Halving. -/
lemma shiftRightOne (h : Marks extended x) : Marks extended.shiftRightOne (x / 2) := by
  obtain ⟨mantissa, roundBit, stickyBit⟩ := extended
  obtain ⟨hle, hlt, hround, hsticky⟩ := h
  dsimp only at hle hlt hround hsticky
  -- nothing is left over if the fraction was the mantissa itself
  have hwhole : (roundBit || stickyBit) = false ↔ x = mantissa := by
    cases roundBit with
    | false => simpa using hsticky
    | true =>
        have hhalf := hround.mp rfl
        exact iff_of_false (by simp) (by linarith)
  obtain ⟨half, rfl | rfl⟩ : ∃ half, mantissa = 2 * half ∨ mantissa = 2 * half + 1 :=
    ⟨mantissa / 2, by omega⟩
  · have hdiv : 2 * half / 2 = half := by omega
    have hmod : 2 * half % 2 = 0 := by omega
    push_cast at hle hlt hwhole
    refine ⟨?_, ?_, ?_, ?_⟩ <;>
      simp only [ExtendedMantissa.shiftRightOne, hdiv, hmod, hwhole]
    · linarith
    · linarith
    · exact iff_of_false (by decide) (by linarith)
    · constructor <;> intro h <;> simp at h ⊢ <;> linarith
  · have hdiv : (2 * half + 1) / 2 = half := by omega
    have hmod : (2 * half + 1) % 2 = 1 := by omega
    push_cast at hle hlt hwhole
    refine ⟨?_, ?_, ?_, ?_⟩ <;>
      simp only [ExtendedMantissa.shiftRightOne, hdiv, hmod, hwhole]
    · linarith
    · linarith
    · exact iff_of_true (by decide) (by linarith)
    · constructor <;> intro h <;> simp at h ⊢ <;> linarith

/-- Shifting to the right divides by a power of two. -/
lemma shiftRight (h : Marks extended x) (shift : ℕ) :
    Marks (extended >>> shift) (x / 2 ^ shift) := by
  induction shift with
  | zero =>
      rw [pow_zero, div_one]
      exact h
  | succ shift ih =>
      have hstep : extended >>> (shift + 1) = (extended >>> shift).shiftRightOne := rfl
      rw [hstep, pow_succ, ← div_div]
      exact ih.shiftRightOne

/-- Rounding takes the nearest number, the even one of two. -/
lemma roundedMantissa_eq {n : ℕ} (h : Marks extended x) (hnearest : HalfEven x n) :
    extended.roundedMantissa = n := by
  obtain ⟨mantissa, roundBit, stickyBit⟩ := extended
  obtain ⟨hle, hlt, hround, hsticky⟩ := h
  obtain ⟨hlow, hhigh, heven⟩ := hnearest
  dsimp only at hle hlt hround hsticky
  cases roundBit with
  | false =>
      have hbelow : ¬ (mantissa : ℚ) + 1 / 2 ≤ x := fun hhalf => by simpa using hround.mpr hhalf
      have hmantissa : mantissa = n := by
        have hupper : 2 * (n : ℚ) < 2 * mantissa + 2 := by linarith
        have hlower : 2 * (mantissa : ℚ) < 2 * n + 2 := by linarith
        norm_cast at hupper hlower
        omega
      cases stickyBit <;> exact hmantissa
  | true =>
      have habove := hround.mp rfl
      have hupper : 2 * (n : ℚ) < 2 * mantissa + 3 := by linarith
      have hlower : 2 * (mantissa : ℚ) ≤ 2 * n := by linarith
      norm_cast at hupper hlower
      cases stickyBit with
      | false =>
          -- a tie, which goes to the even one
          have htie : x = mantissa + 1 / 2 := by simpa using hsticky.mp rfl
          have hvalue : (⟨mantissa, true, false⟩ : ExtendedMantissa).roundedMantissa =
              mantissa + mantissa % 2 := rfl
          have hn : n % 2 = 0 := by
            apply heven
            rcases (show n = mantissa ∨ n = mantissa + 1 by omega) with rfl | rfl
            · right; rw [htie]; ring
            · left; rw [htie]; push_cast; ring
          rw [hvalue]
          omega
      | true =>
          have hvalue : (⟨mantissa, true, true⟩ : ExtendedMantissa).roundedMantissa =
              mantissa + 1 := rfl
          have hne : x ≠ mantissa + 1 / 2 := fun heq => by
            have := hsticky.mpr (by simpa using heq)
            simp at this
          have hstrict : (mantissa : ℚ) + 1 / 2 < x := lt_of_le_of_ne habove hne.symm
          have hlower : 2 * (mantissa : ℚ) < 2 * n := by linarith
          norm_cast at hlower
          rw [hvalue]
          omega

/-- The two bits of a fraction. -/
lemma ofFraction (whole : ℕ) {part : ℚ} (hpos : 0 ≤ part) (hlt : part < 1) :
    Marks ⟨whole, decide (1 / 2 ≤ part), decide (part ≠ 0 ∧ part ≠ 1 / 2)⟩ (whole + part) where
  le := by simpa using hpos
  lt := by simpa using hlt
  round := by simp
  sticky := by
    by_cases hhalf : 1 / 2 ≤ part
    · have hzero : part ≠ 0 := by linarith
      simp only [hhalf, hzero, ne_eq, not_false_eq_true, true_and, decide_not,
        Bool.not_eq_false', decide_eq_true_eq, decide_true, if_true, add_right_inj]
    · have htie : part ≠ 1 / 2 := fun h => hhalf h.ge
      simp only [htie, ne_eq, not_false_eq_true, and_true, decide_not, Bool.not_eq_false',
        decide_eq_true_eq, hhalf, Bool.false_eq_true, decide_false, if_false, add_zero,
        add_eq_left]

/-- A whole number. -/
lemma exact (n : ℕ) : Marks (.ofMantissaAndAccuracy n .exact) n := by
  have h := ofFraction n le_rfl zero_lt_one
  have hbits : (⟨n, decide (1 / 2 ≤ (0 : ℚ)), decide ((0 : ℚ) ≠ 0 ∧ (0 : ℚ) ≠ 1 / 2)⟩ :
      ExtendedMantissa) = .ofMantissaAndAccuracy n .exact := by
    simp [ExtendedMantissa.ofMantissaAndAccuracy]
  rwa [hbits, add_zero] at h

/-- A quotient with its remainder. -/
lemma quotient (num : ℕ) {den : ℕ} (hden : 0 < den) :
    Marks (.ofMantissaAndAccuracy (num / den) (accuracyOfFraction (num % den) den))
      (num / den : ℚ) := by
  have hden' : (0 : ℚ) < den := by exact_mod_cast hden
  obtain ⟨whole, hwhole⟩ : ∃ whole, num / den = whole := ⟨_, rfl⟩
  obtain ⟨rest, hrest⟩ : ∃ rest, num % den = rest := ⟨_, rfl⟩
  have hnum : (num : ℚ) = den * whole + rest := by
    rw [← hwhole, ← hrest]
    exact_mod_cast (Nat.div_add_mod num den).symm
  have hvalue : (num / den : ℚ) = whole + rest / (den : ℚ) := by
    rw [hnum]
    field_simp
  have hlt : (rest : ℚ) / den < 1 := by
    rw [div_lt_one hden']
    exact_mod_cast hrest ▸ Nat.mod_lt num hden
  have hzero : (rest : ℚ) / den = 0 ↔ rest = 0 := by
    rw [div_eq_zero_iff, or_iff_left hden'.ne', Nat.cast_eq_zero]
  have hhalf : 1 / 2 ≤ (rest : ℚ) / den ↔ den ≤ 2 * rest := by
    rw [le_div_iff₀ hden', one_div, inv_mul_le_iff₀ (by norm_num)]
    exact_mod_cast Iff.rfl
  have htie : (rest : ℚ) / den = 1 / 2 ↔ 2 * rest = den := by
    rw [div_eq_div_iff hden'.ne' (by norm_num), one_mul, mul_comm]
    exact_mod_cast Iff.rfl
  have hbits : (⟨whole, decide (1 / 2 ≤ (rest : ℚ) / den),
      decide ((rest : ℚ) / den ≠ 0 ∧ (rest : ℚ) / den ≠ 1 / 2)⟩ : ExtendedMantissa) =
        .ofMantissaAndAccuracy whole (accuracyOfFraction rest den) := by
    rw [accuracyOfFraction]
    simp only [hhalf, htie, hzero, ne_eq]
    by_cases hnone : rest = 0
    · have hgt : ¬ den ≤ 2 * rest := by omega
      simp [hnone, hden.ne', ExtendedMantissa.ofMantissaAndAccuracy]
    · rw [if_neg hnone]
      rcases lt_trichotomy (2 * rest) den with hcmp | hcmp | hcmp
      · rw [compare_lt_iff_lt.mpr hcmp]
        simp [hnone, hcmp.ne, hcmp, ExtendedMantissa.ofMantissaAndAccuracy]
      · rw [compare_eq_iff_eq.mpr hcmp]
        simp [hcmp, ExtendedMantissa.ofMantissaAndAccuracy]
      · rw [compare_gt_iff_gt.mpr hcmp]
        simp [hnone, hcmp.ne', hcmp.le, ExtendedMantissa.ofMantissaAndAccuracy]
  rw [hvalue, hwhole, hrest, ← hbits]
  exact ofFraction whole (by positivity) hlt

end Marks

/-! ### The numbers that round to a double -/

/-- How far the numbers that round to `mantissa * 2 ^ exponent` go down, in quarters of the
last bit. Below a power of two the doubles lie twice as close. -/
def quartersBelow (mantissa : ℕ) (exponent : ℤ) : ℕ :=
  if mantissa = fractionSize ∧ leastExponent < exponent then 1 else 2

/-- The number rounds to the double `mantissa * 2 ^ exponent`: it lies between the middles to
its neighbours, or on one of them if the mantissa is even. -/
structure RoundsTo (mantissa : ℕ) (exponent : ℤ) (value : ℚ) : Prop where
  ge : 4 * (mantissa : ℚ) ≤ 4 * (value / 2 ^ exponent) + quartersBelow mantissa exponent
  le : 4 * (value / 2 ^ exponent) ≤ 4 * mantissa + 2
  even : 4 * (mantissa : ℚ) = 4 * (value / 2 ^ exponent) + quartersBelow mantissa exponent ∨
    4 * (value / 2 ^ exponent) = 4 * mantissa + 2 → mantissa % 2 = 0

section Rounding

variable {mantissa m : ℕ} {exponent e : ℤ} {value x : ℚ} {sign : Sign} {accuracy : Accuracy}
  {hm : 0 < m}

lemma quartersBelow_le (m : ℕ) (e : ℤ) : (quartersBelow m e : ℚ) ≤ 2 := by
  rw [quartersBelow]
  split_ifs <;> norm_num

/-- A fraction is of the size of its whole part. -/
lemma size_bounds (hpos : 0 < mantissa) (hle : (mantissa : ℚ) ≤ x) (hlt : x < mantissa + 1) :
    (2 : ℚ) ^ (mantissa.log2 + exponent) ≤ x * 2 ^ exponent ∧
      x * 2 ^ exponent < 2 ^ (mantissa.log2 + exponent + 1) := by
  have hunit : (0 : ℚ) < 2 ^ exponent := by positivity
  have hlow : ((2 ^ mantissa.log2 : ℕ) : ℚ) ≤ mantissa := by
    exact_mod_cast Nat.log2_self_le hpos.ne'
  have hhigh : (mantissa : ℚ) + 1 ≤ ((2 ^ (mantissa.log2 + 1) : ℕ) : ℚ) := by
    exact_mod_cast Nat.lt_log2_self
  have hsucc : (2 : ℚ) ^ (mantissa.log2 + exponent + 1) =
      2 ^ (mantissa.log2 + 1) * 2 ^ exponent := by
    rw [← zpow_natCast, ← zpow_add₀ two_ne_zero]
    push_cast
    congr 1
    ring
  push_cast at hlow hhigh
  rw [zpow_add₀ two_ne_zero, hsucc, zpow_natCast]
  exact ⟨mul_le_mul_of_nonneg_right (hlow.trans hle) hunit.le,
    mul_lt_mul_of_pos_right (hlt.trans_le hhigh) hunit⟩

/-- The exponent to which a fraction is shifted: it leaves 53 bits, or is the least one. -/
lemma targetExponent_eq_of_bounds (hle : (mantissa : ℚ) ≤ x) (hlt : x < mantissa + 1)
    (htarget : exponent ≤ Format.binary64.targetExponent (totalExponent mantissa exponent))
    (hleast : -1074 ≤ e) (hlow : e = -1074 ∨ (2 : ℚ) ^ (52 + e) ≤ x * 2 ^ exponent)
    (hhigh : x * 2 ^ exponent < 2 ^ (53 + e)) :
    Format.binary64.targetExponent (totalExponent mantissa exponent) = e := by
  rw [Doubles.targetExponent_eq] at htarget ⊢
  have hmono : ∀ {a b : ℤ}, (2 : ℚ) ^ a < 2 ^ b → a < b :=
    fun h => (zpow_lt_zpow_iff_right₀ one_lt_two).mp h
  rcases Nat.eq_zero_or_pos mantissa with rfl | hpos
  · -- nothing is left before the point, so the exponent is at most the least one
    have hsmall : exponent ≤ -1074 := by
      rw [Nat.log2_zero] at htarget
      omega
    have hvalue : x * 2 ^ exponent < 2 ^ exponent := by
      rw [Nat.cast_zero, zero_add] at hlt
      exact mul_lt_of_lt_one_left (by positivity) hlt
    have he : e = -1074 := hlow.resolve_right fun h => by
      have := hmono (h.trans_lt hvalue)
      omega
    rw [Nat.log2_zero]
    omega
  · obtain ⟨hge, hless⟩ := @size_bounds _ exponent _ hpos hle hlt
    have hupper := hmono (hge.trans_lt hhigh)
    rcases hlow with he | hlow
    · omega
    · have hlower := hmono (hlow.trans_lt hless)
      omega

/-- A fraction shifted to its exponent. -/
lemma exists_shifted {target : ℤ}
    (hmarks : Marks (.ofMantissaAndAccuracy mantissa accuracy) x) (hle : exponent ≤ target)
    (htarget :
      Format.binary64.targetExponent (totalExponent mantissa exponent) = target) :
    ∃ extended, shiftToTargetExponent .binary64 mantissa exponent accuracy =
      (extended, target) ∧ Marks extended (x * 2 ^ exponent / 2 ^ target) := by
  obtain ⟨shift, rfl⟩ : ∃ shift : ℕ, target = exponent + shift :=
    ⟨(target - exponent).toNat, by omega⟩
  refine ⟨ExtendedMantissa.ofMantissaAndAccuracy mantissa accuracy >>> shift, ?_, ?_⟩
  · simp only [shiftToTargetExponent, htarget, shiftToExponent, add_sub_cancel_left,
      Int.toNat_natCast]
  · have hscaled : x / 2 ^ shift = x * 2 ^ exponent / 2 ^ (exponent + (shift : ℤ)) := by
      rw [zpow_add₀ two_ne_zero, mul_comm ((2 : ℚ) ^ exponent), ← div_div,
        mul_div_assoc x, ← mul_div_assoc x, div_right_comm, mul_div_assoc,
        div_self (zpow_ne_zero _ two_ne_zero), mul_one, zpow_natCast]
    exact hscaled ▸ hmarks.shiftRight shift

namespace RoundsTo

/-- The number is not beyond the doubles of this exponent. -/
lemma lt_two_zpow (h : RoundsTo m e value) (hbits : m < 2 ^ 53) : value < 2 ^ (53 + e) := by
  have hunit : (0 : ℚ) < 2 ^ e := by positivity
  have hbits' : (m : ℚ) + 1 ≤ 2 ^ 53 := by exact_mod_cast hbits
  rw [zpow_add₀ two_ne_zero, ← div_lt_iff₀ hunit]
  norm_num at hbits' ⊢
  linarith [h.le]

/-- In units of the last bit, the mantissa is the nearest number. -/
lemma halfEven (h : RoundsTo m e value) : HalfEven (value / 2 ^ e) m := by
  have hquarters := quartersBelow_le m e
  refine ⟨by linarith [h.ge], by linarith [h.le], fun htie => h.even ?_⟩
  rcases htie with htie | htie
  · left
    linarith [h.ge]
  · right
    linarith

/-- Below a power of two, the power is nearest in finer units too. -/
lemma halfEven_finer (h : RoundsTo m e value) (hcanonical : Doubles.Canonical m e)
    (hne : e ≠ -1074) (hbelow : value < 2 ^ (52 + e)) :
    m = 2 ^ 52 ∧ (2 : ℚ) ^ (52 + (e - 1)) ≤ value ∧ HalfEven (value / 2 ^ (e - 1)) (2 ^ 53) := by
  have hunit : (0 : ℚ) < 2 ^ e := by positivity
  have hleast := hcanonical.le_exponent
  have hnormal := hcanonical.normal.resolve_right hne
  rw [zpow_add₀ two_ne_zero, ← div_lt_iff₀ hunit] at hbelow
  obtain ⟨place, hplace⟩ : ∃ place : ℚ, value / 2 ^ e = place := ⟨_, rfl⟩
  have hvalue : value = place * 2 ^ e := (div_eq_iff hunit.ne').mp hplace
  have hge := h.ge
  rw [hplace] at hge hbelow
  norm_num at hbelow
  have hlt : (m : ℚ) < 4503599627370496 + 1 := by linarith [quartersBelow_le m e]
  have hleading : m = 2 ^ 52 := by
    have : m < 4503599627370496 + 1 := by exact_mod_cast hlt
    omega
  have hone : quartersBelow m e = 1 := if_pos ⟨hleading, by rw [leastExponent]; omega⟩
  rw [hone, hleading] at hge
  norm_num at hge
  have hhalf : value / 2 ^ (e - 1) = 2 * place := by
    rw [zpow_sub_one₀ two_ne_zero, hvalue]
    field_simp
  refine ⟨hleading, ?_, ?_⟩
  · rw [show 52 + (e - 1) = 51 + e by ring, zpow_add₀ two_ne_zero, hvalue]
    exact mul_le_mul_of_nonneg_right (by norm_num; linarith) hunit.le
  · rw [hhalf]
    refine ⟨?_, ?_, fun _ => rfl⟩ <;> push_cast <;> linarith

end RoundsTo

/-- **Rounding** a fraction that rounds to a double gives this double. -/
theorem roundWithAccuracy_eq_of_roundsTo
    (hmarks : Marks (.ofMantissaAndAccuracy mantissa accuracy) x)
    (htarget : exponent ≤ Format.binary64.targetExponent (totalExponent mantissa exponent))
    (hcanonical : Doubles.Canonical m e) (h : RoundsTo m e (x * 2 ^ exponent)) :
    roundWithAccuracy .binary64 sign mantissa exponent accuracy = .finite sign m e hm := by
  have hwhole : (ExtendedMantissa.ofMantissaAndAccuracy mantissa accuracy).mantissa =
      mantissa := by
    rcases accuracy with _ | _ | _ | _ <;> rfl
  have hle : (mantissa : ℚ) ≤ x := hwhole ▸ hmarks.le
  have hlt : x < mantissa + 1 := hwhole ▸ hmarks.lt
  have hleast := hcanonical.le_exponent
  by_cases hfull : e = -1074 ∨ (2 : ℚ) ^ (52 + e) ≤ x * 2 ^ exponent
  · have heq := targetExponent_eq_of_bounds hle hlt htarget hleast hfull
      (h.lt_two_zpow hcanonical.mantissa_lt)
    obtain ⟨extended, hfirst, hextended⟩ := exists_shifted hmarks (heq ▸ htarget) heq
    refine Doubles.roundWithAccuracy_eq hm hfirst ?_
    rw [hextended.roundedMantissa_eq h.halfEven]
    exact Doubles.shiftToTargetExponent_of_lt hcanonical.mantissa_lt hleast
  · -- below a power of two the number is rounded at the finer exponent, and carries
    rw [not_or, not_le] at hfull
    obtain ⟨hleading, hlow, hnearest⟩ := h.halfEven_finer hcanonical hfull.1 hfull.2
    have hhigh : x * 2 ^ exponent < 2 ^ (53 + (e - 1)) := by
      rw [show 53 + (e - 1) = 52 + e by ring]
      exact hfull.2
    have heq := targetExponent_eq_of_bounds hle hlt htarget (by omega) (.inr hlow) hhigh
    obtain ⟨extended, hfirst, hextended⟩ := exists_shifted hmarks (heq ▸ htarget) heq
    subst hleading
    refine Doubles.roundWithAccuracy_eq hm hfirst ?_
    rw [hextended.roundedMantissa_eq hnearest,
      Doubles.shiftToTargetExponent_two_pow (by omega), sub_add_cancel]

/-- Shifted to the left, a mantissa has so many bits more. -/
lemma log2_mul_two_pow (hpos : 0 < mantissa) (shift : ℕ) :
    (mantissa * 2 ^ shift).log2 = mantissa.log2 + shift := by
  rw [Nat.log2_eq_iff (Nat.mul_pos hpos (Nat.two_pow_pos shift)).ne', Nat.pow_add,
    show mantissa.log2 + shift + 1 = mantissa.log2 + 1 + shift by omega, Nat.pow_add]
  exact ⟨Nat.mul_le_mul_right _ (Nat.log2_self_le hpos.ne'),
    Nat.mul_lt_mul_of_pos_right Nat.lt_log2_self (Nat.two_pow_pos shift)⟩

/-- The operation that rounds shifts a mantissa to the left, if it has too few bits, and then rounds
it. -/
lemma exists_round_eq (sign : Sign) {mantissa : ℕ} (hpos : 0 < mantissa) (exponent : ℤ) :
    ∃ shift : ℕ, UnpackedFloat.round .binary64 sign mantissa exponent =
        roundWithAccuracy .binary64 sign (mantissa * 2 ^ shift) (exponent - shift) .exact ∧
      exponent - shift ≤ Format.binary64.targetExponent
        (totalExponent (mantissa * 2 ^ shift) (exponent - shift)) ∧
      (mantissa * 2 ^ exponent : ℚ) =
        ((mantissa * 2 ^ shift : ℕ) : ℚ) * 2 ^ (exponent - shift : ℤ) := by
  obtain ⟨target, htarget⟩ : ∃ target,
      Format.binary64.targetExponent (totalExponent mantissa exponent) = target := ⟨_, rfl⟩
  obtain ⟨shift, hshift⟩ : ∃ shift, (exponent - target).toNat = shift := ⟨_, rfl⟩
  refine ⟨shift, ?_, ?_, ?_⟩
  · rw [UnpackedFloat.round, htarget, decreaseExponent, hshift, Nat.shiftLeft_eq]
  · rw [Doubles.targetExponent_eq] at htarget ⊢
    rw [log2_mul_two_pow hpos]
    omega
  · rw [zpow_sub₀ two_ne_zero, zpow_natCast, Nat.cast_mul, Nat.cast_pow, Nat.cast_ofNat]
    field_simp

/-- A number of any exponent that rounds to a double is rounded to it. -/
theorem round_eq_of_roundsTo (hpos : 0 < mantissa) (hcanonical : Doubles.Canonical m e)
    (h : RoundsTo m e (mantissa * 2 ^ exponent)) :
    UnpackedFloat.round .binary64 sign mantissa exponent = .finite sign m e hm := by
  obtain ⟨shift, hround, htarget, hvalue⟩ := exists_round_eq sign hpos exponent
  rw [hround]
  rw [hvalue] at h
  exact roundWithAccuracy_eq_of_roundsTo (.exact _) htarget hcanonical h

end Rounding

/-! ### Products and quotients -/

section Operations

variable {m m₁ m₂ : ℕ} {e e₁ e₂ : ℤ} {s₁ s₂ : Sign} {hm : 0 < m} {hm₁ : 0 < m₁} {hm₂ : 0 < m₂}

/-- **Products**: a product that rounds to a double is this double. -/
theorem mul_eq_of_roundsTo (hcanonical : Doubles.Canonical m e) (hfull : 2 ^ 52 ≤ m₁ * m₂)
    (h : RoundsTo m e (m₁ * 2 ^ e₁ * (m₂ * 2 ^ e₂))) :
    UnpackedFloat.mul .binary64 (.finite s₁ m₁ e₁ hm₁) (.finite s₂ m₂ e₂ hm₂) =
      .finite (s₁ * s₂) m e hm := by
  have hvalue : (m₁ * 2 ^ e₁ * (m₂ * 2 ^ e₂) : ℚ) = ((m₁ * m₂ : ℕ) : ℚ) * 2 ^ (e₁ + e₂) := by
    rw [zpow_add₀ two_ne_zero]
    push_cast
    ring
  have hlog : 52 ≤ (m₁ * m₂).log2 :=
    (Nat.le_log2 (Nat.mul_pos hm₁ hm₂).ne').mpr hfull
  have htarget : e₁ + e₂ ≤
      Format.binary64.targetExponent (totalExponent (m₁ * m₂) (e₁ + e₂)) := by
    rw [Doubles.targetExponent_eq]
    omega
  rw [hvalue] at h
  exact roundWithAccuracy_eq_of_roundsTo (.exact _) htarget hcanonical h

/-- **Quotients**: a quotient that rounds to a double is this double. -/
theorem div_eq_of_roundsTo (hcanonical : Doubles.Canonical m e)
    (h : RoundsTo m e (m₁ * 2 ^ e₁ / (m₂ * 2 ^ e₂))) :
    UnpackedFloat.div .binary64 (.finite s₁ m₁ e₁ hm₁) (.finite s₂ m₂ e₂ hm₂) =
      .finite (s₁ / s₂) m e hm := by
  obtain ⟨target, htarget⟩ : ∃ target, min (e₁ - e₂) (Format.binary64.targetExponent
      (totalExponent m₁ e₁ - totalExponent m₂ e₂)) = target := ⟨_, rfl⟩
  obtain ⟨shift, hshift⟩ : ∃ shift : ℕ, e₁ - e₂ = target + shift :=
    ⟨(e₁ - e₂ - target).toNat, by omega⟩
  have hcore : divCore .binary64 m₁ e₁ m₂ e₂ =
      (m₁ * 2 ^ shift / m₂, target, accuracyOfFraction (m₁ * 2 ^ shift % m₂) m₂) := by
    have htoNat : (e₁ - e₂ - target).toNat = shift := by omega
    rw [divCore]
    simp only [htarget, htoNat, Nat.shiftLeft_eq]
  have hdiv : UnpackedFloat.div .binary64 (.finite s₁ m₁ e₁ hm₁) (.finite s₂ m₂ e₂ hm₂) =
      roundWithAccuracy .binary64 (s₁ / s₂) (m₁ * 2 ^ shift / m₂) target
        (accuracyOfFraction (m₁ * 2 ^ shift % m₂) m₂) := by
    rw [UnpackedFloat.div]
    simp only [hcore]
  have hvalue : (m₁ * 2 ^ e₁ / (m₂ * 2 ^ e₂) : ℚ) =
      ((m₁ * 2 ^ shift : ℕ) : ℚ) / m₂ * 2 ^ target := by
    have hsum : e₁ = target + shift + e₂ := by omega
    have hm₂' : (m₂ : ℚ) ≠ 0 := by exact_mod_cast hm₂.ne'
    rw [hsum, zpow_add₀ two_ne_zero, zpow_add₀ two_ne_zero, zpow_natCast]
    push_cast
    field_simp
  rw [hdiv]
  rw [hvalue] at h
  refine roundWithAccuracy_eq_of_roundsTo (.quotient _ hm₂) ?_ hcanonical h
  rw [Doubles.targetExponent_eq]
  by_cases hleast : target ≤ -1074
  · exact hleast.trans (le_max_right _ _)
  · -- the quotient has 53 bits
    have hsize : target ≤ m₁.log2 + e₁ - (m₂.log2 + e₂) - 53 := by
      have hbits : (Format.binary64.mantissaBits : Int) = 53 := rfl
      have hmin : Format.binary64.minExponent = -1074 := rfl
      rw [Format.targetExponent, totalExponent, totalExponent, hbits, hmin] at htarget
      omega
    have hbits : 2 ^ 52 * m₂ ≤ m₁ * 2 ^ shift :=
      calc 2 ^ 52 * m₂ ≤ 2 ^ 52 * 2 ^ (m₂.log2 + 1) :=
            Nat.mul_le_mul_left _ Nat.lt_log2_self.le
        _ = 2 ^ (52 + (m₂.log2 + 1)) := (pow_add _ _ _).symm
        _ ≤ 2 ^ (m₁.log2 + shift) := Nat.pow_le_pow_right (by decide) (by omega)
        _ = 2 ^ m₁.log2 * 2 ^ shift := pow_add _ _ _
        _ ≤ m₁ * 2 ^ shift := Nat.mul_le_mul_right _ (Nat.log2_self_le hm₁.ne')
    have hquotient : 2 ^ 52 ≤ m₁ * 2 ^ shift / m₂ := (Nat.le_div_iff_mul_le hm₂).mpr hbits
    have hlog : 52 ≤ (m₁ * 2 ^ shift / m₂).log2 :=
      (Nat.le_log2 (by omega)).mpr hquotient
    omega

end Operations

end ScriptLint.Decimal
