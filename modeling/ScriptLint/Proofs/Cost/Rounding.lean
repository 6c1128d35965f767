import Mathlib
import ScriptLint.Proofs.Cost.Halves
import ScriptLint.Proofs.Decimal.Written

/-!
How far rounding moves sums and products.

* `largest`, `Near`: the largest finite double, and the numbers that so many roundings lead to.
* `near_roundedMantissa`: rounding moves a number by half a unit at most, so by a factor near one.
* `exists_roundWithAccuracy_near`, `exists_round_near`: this holds of all operations that round, as
  long as nothing is lost below the least exponent.
* `Valued`: a finite double that is not negative, with its value (`valueOf`);
  `Valued.exists_add`, `Valued.exists_mul`, `exists_valued_ofNat`: sums, products and counts.
* `isFinite_of_add`: an overflow is never undone.
* `Rounded`: a double that comes from a number by so many roundings; `Rounded.add`,
  `Valued.rounded_mul`, `Rounded.heldWithin`.
-/

namespace ScriptLint.Doubles

open Float.Model Float.Model.UnpackedFloat Decimal

/-- The largest finite double. -/
def largest : ℚ := (2 ^ 53 - 1) * 2 ^ (971 : ℤ)

/-! ### Relative errors -/

/-- The factor by which rounding enlarges a number at most. -/
def growth : ℚ := 1 + 2 ^ (-53 : ℤ)

/-- The factor by which it reduces a number at most. -/
def decay : ℚ := 1 - 2 ^ (-53 : ℤ)

/-- So many roundings of sums and products lead from the one number to the other. -/
structure Near (k : ℕ) (q v : ℚ) : Prop where
  ge : q * decay ^ k ≤ v
  le : v ≤ q * growth ^ k

section Near

variable {q r s v w : ℚ} {k l : ℕ}

lemma one_le_growth : 1 ≤ growth :=
  le_add_of_nonneg_right (by positivity)

lemma growth_nonneg : 0 ≤ growth :=
  zero_le_one.trans one_le_growth

lemma decay_nonneg : 0 ≤ decay := by
  norm_num [decay]

lemma decay_le_one : decay ≤ 1 :=
  sub_le_self 1 (by positivity)

lemma Near.refl (q : ℚ) : Near 0 q q := by
  constructor <;> rw [pow_zero, mul_one]

lemma Near.mono (h : Near k q v) (hq : 0 ≤ q) (hle : k ≤ l) : Near l q v where
  ge := (mul_le_mul_of_nonneg_left (pow_le_pow_of_le_one decay_nonneg decay_le_one hle) hq).trans
    h.ge
  le := h.le.trans (mul_le_mul_of_nonneg_left (pow_le_pow_right₀ one_le_growth hle) hq)

lemma Near.trans (h : Near k q r) (h' : Near l r s) : Near (k + l) q s where
  ge := by
    rw [pow_add, ← mul_assoc]
    exact (mul_le_mul_of_nonneg_right h.ge (pow_nonneg decay_nonneg l)).trans h'.ge
  le := by
    rw [pow_add, ← mul_assoc]
    exact h'.le.trans (mul_le_mul_of_nonneg_right h.le (pow_nonneg growth_nonneg l))

lemma Near.add (hv : Near k q v) (hw : Near k r w) : Near k (q + r) (v + w) where
  ge := by
    rw [add_mul]
    exact add_le_add hv.ge hw.ge
  le := by
    rw [add_mul]
    exact add_le_add hv.le hw.le

lemma Near.mul_right (h : Near k q v) (hr : 0 ≤ r) : Near k (q * r) (v * r) where
  ge := by
    rw [mul_right_comm]
    exact mul_le_mul_of_nonneg_right h.ge hr
  le := by
    rw [mul_right_comm q]
    exact mul_le_mul_of_nonneg_right h.le hr

end Near

/-! ### Rounding -/

section Rounding

variable {extended : ExtendedMantissa} {x : ℚ} {mantissa m n : ℕ} {exponent e : ℤ} {hm : 0 < m}

/-- Rounding moves a number by half a unit at most. -/
lemma roundedMantissa_within (h : Marks extended x) :
    2 * (extended.roundedMantissa : ℚ) ≤ 2 * x + 1 ∧
      2 * x ≤ 2 * (extended.roundedMantissa : ℚ) + 1 := by
  obtain ⟨whole, roundBit, stickyBit⟩ := extended
  obtain ⟨hle, hlt, hround, hsticky⟩ := h
  dsimp only at hle hlt hround hsticky
  cases roundBit with
  | false =>
      have hsame : (⟨whole, false, stickyBit⟩ : ExtendedMantissa).roundedMantissa = whole := by
        cases stickyBit <;> rfl
      have hhalf : ¬ (whole : ℚ) + 1 / 2 ≤ x := fun hhalf => by simpa using hround.mpr hhalf
      rw [hsame]
      constructor <;> linarith
  | true =>
      have hhalf := hround.mp rfl
      cases stickyBit with
      | true =>
          have hnext : (⟨whole, true, true⟩ : ExtendedMantissa).roundedMantissa = whole + 1 := rfl
          rw [hnext]
          push_cast
          constructor <;> linarith
      | false =>
          -- a tie, which goes either way
          have htie : x = whole + 1 / 2 := by simpa using hsticky.mp rfl
          obtain ⟨hlow, hhigh⟩ := roundedMantissa_bounds ⟨whole, true, false⟩
          generalize (⟨whole, true, false⟩ : ExtendedMantissa).roundedMantissa = n at hlow hhigh ⊢
          have hlow' : (whole : ℚ) ≤ n := by exact_mod_cast hlow
          have hhigh' : (n : ℚ) ≤ whole + 1 := by exact_mod_cast hhigh
          constructor <;> linarith

/-- A whole number is kept. -/
lemma roundedMantissa_of_whole (h : Marks extended n) : extended.roundedMantissa = n :=
  h.roundedMantissa_eq ⟨by linarith, by linarith, fun htie => by rcases htie with h | h <;> linarith⟩

/-- Of a number of at least 53 bits before the point, half a unit is a small part; and a whole
number is kept. -/
lemma near_roundedMantissa (h : Marks extended x) (hsize : 2 ^ 52 ≤ x ∨ ∃ n : ℕ, x = n) :
    Near 1 x extended.roundedMantissa := by
  rcases hsize with hlarge | ⟨n, rfl⟩
  · obtain ⟨hle, hge⟩ := roundedMantissa_within h
    constructor
    · rw [pow_one, decay]
      norm_num at hlarge ⊢
      linarith
    · rw [pow_one, growth]
      norm_num at hlarge ⊢
      linarith
  · rw [roundedMantissa_of_whole h]
    exact (Near.refl (n : ℚ)).mono n.cast_nonneg (Nat.zero_le 1)

/-- **Rounding** an exact number that is a multiple of the least double leads to a number near it. -/
lemma exists_roundWithAccuracy_near (hpos : 0 < mantissa)
    (htarget : exponent ≤ Format.binary64.targetExponent (totalExponent mantissa exponent))
    (hwhole : (mantissa * 2 ^ exponent : ℚ) = n * 2 ^ (-1074 : ℤ)) :
    ∃ m e hm, roundWithAccuracy .binary64 .positive mantissa exponent .exact =
        .finite .positive m e hm ∧ Canonical m e ∧
      Format.binary64.targetExponent (totalExponent mantissa exponent) ≤ e ∧
        Near 1 (mantissa * 2 ^ exponent) (m * 2 ^ e) := by
  obtain ⟨target, heq⟩ : ∃ target,
      Format.binary64.targetExponent (totalExponent mantissa exponent) = target := ⟨_, rfl⟩
  rw [heq] at htarget ⊢
  obtain ⟨shift, hshift⟩ : ∃ shift : ℕ, exponent + shift = target :=
    ⟨(target - exponent).toNat, by omega⟩
  obtain ⟨hbits, hle, hnormal⟩ := div_two_pow_bounds hpos heq hshift
  obtain ⟨extended, hfirst, hmarks⟩ := exists_shifted (.exact mantissa) htarget heq
  have hfloor : extended.mantissa = mantissa / 2 ^ shift := by
    rw [shiftToTargetExponent_exact heq, show (target - exponent).toNat = shift by omega] at hfirst
    rw [← (Prod.mk.inj hfirst).1, mantissa_shiftRight]
  rw [← hfloor] at hbits hnormal
  have hunit : (0 : ℚ) < 2 ^ target := by positivity
  obtain ⟨place, hplace⟩ : ∃ place : ℚ, mantissa * 2 ^ exponent / 2 ^ target = place := ⟨_, rfl⟩
  have hvalue : (mantissa * 2 ^ exponent : ℚ) = place * 2 ^ target :=
    (div_eq_iff hunit.ne').mp hplace
  have hplacePos : 0 < place := hplace ▸ by positivity
  rw [hplace] at hmarks
  -- in units of the last bit the number is whole, if these are the least ones
  have hleast : target = -1074 → place = n := fun htop => by
    rw [hvalue, htop] at hwhole
    exact mul_right_cancel₀ (by positivity) hwhole
  have hsize : 2 ^ 52 ≤ place ∨ ∃ n : ℕ, place = n := by
    refine hnormal.imp (fun hnormal => ?_) fun htop => ⟨n, hleast htop⟩
    have hfull : ((2 ^ 52 : ℕ) : ℚ) ≤ extended.mantissa := by exact_mod_cast hnormal
    exact_mod_cast hfull.trans hmarks.le
  have hpositive : 0 < extended.roundedMantissa := by
    rcases hnormal with hnormal | htop
    · have hlow := (roundedMantissa_bounds extended).1
      omega
    · rw [hleast htop] at hmarks hplacePos
      rw [roundedMantissa_of_whole hmarks]
      exact_mod_cast hplacePos
  obtain ⟨m, e, hm, hround, hcanonical, hkept⟩ :=
    exists_rounded .positive hfirst hpositive hbits hle hnormal
  have hrounded : (m * 2 ^ e : ℚ) = extended.roundedMantissa * 2 ^ target := by
    rcases hkept with ⟨rfl, rfl⟩ | ⟨rfl, rfl, hcarry⟩
    · rfl
    · rw [hcarry, zpow_add_one₀ two_ne_zero]
      push_cast
      ring
  refine ⟨m, e, hm, hround, hcanonical, by omega, ?_⟩
  rw [hrounded, hvalue]
  exact (near_roundedMantissa hmarks hsize).mul_right hunit.le

/-- So does the operation that rounds a number of any exponent. -/
lemma exists_round_near (hpos : 0 < mantissa) (hle : -1074 ≤ exponent) :
    ∃ m e hm, UnpackedFloat.round .binary64 .positive mantissa exponent =
        .finite .positive m e hm ∧ Canonical m e ∧
      Near 1 (mantissa * 2 ^ exponent) (m * 2 ^ e) := by
  obtain ⟨shift, hround, htarget, hvalue⟩ := exists_round_eq .positive hpos exponent
  have hwhole : ((mantissa * 2 ^ shift : ℕ) * 2 ^ (exponent - shift) : ℚ) =
      (mantissa * 2 ^ (exponent + 1074).toNat : ℕ) * 2 ^ (-1074 : ℤ) := by
    rw [← hvalue, Nat.cast_mul, Nat.cast_pow, Nat.cast_ofNat, mul_assoc, ← zpow_natCast,
      ← zpow_add₀ two_ne_zero, Int.toNat_of_nonneg (by omega), add_neg_cancel_right]
  obtain ⟨m, e, hm, hresult, hcanonical, -, hnear⟩ :=
    exists_roundWithAccuracy_near (Nat.mul_pos hpos (Nat.two_pow_pos shift)) htarget hwhole
  rw [← hvalue] at hnear
  exact ⟨m, e, hm, hround.trans hresult, hcanonical, hnear⟩

end Rounding

/-! ### Doubles and their values -/

/-- The parts of a finite double that is not negative, and its value. -/
inductive Valued : UnpackedFloat → ℚ → Prop
  | zero (sign : Sign) : Valued (.zero sign) 0
  | finite {m : ℕ} {e : ℤ} (hm : 0 < m) (canonical : Canonical m e) :
      Valued (.finite .positive m e hm) (m * 2 ^ e)

section Valued

variable {x y : Float} {a b : UnpackedFloat} {v w : ℚ} {m n : ℕ} {e : ℤ} {hm : 0 < m}

lemma Valued.nonneg (h : Valued a v) : 0 ≤ v := by
  cases h with
  | zero => exact le_rfl
  | finite => positivity

lemma Valued.isFinite (h : Valued a v) : a.isFinite = true := by
  cases h <;> rfl

/-- Each value is a multiple of the least double. -/
lemma Valued.exists_least (h : Valued a v) : ∃ n : ℕ, v = n * 2 ^ (-1074 : ℤ) := by
  cases h with
  | zero => exact ⟨0, by rw [Nat.cast_zero, zero_mul]⟩
  | finite hm hcanonical => exact ⟨_, (cast_shift_mul_zpow _ hcanonical.le_exponent).symm⟩

/-- The largest finite double has the greatest exponent. -/
lemma exponent_le_of_le_largest (hcanonical : Canonical m e) (h : (m * 2 ^ e : ℚ) ≤ largest) :
    e ≤ 971 := by
  by_contra hgt
  have hnormal : ((2 ^ 52 : ℕ) : ℚ) ≤ m := by
    exact_mod_cast hcanonical.normal.resolve_right (by omega)
  have hgreat : (2 : ℚ) ^ (972 : ℤ) ≤ 2 ^ e := zpow_le_zpow_right₀ one_le_two (by omega)
  have hlow : ((2 ^ 52 : ℕ) : ℚ) * 2 ^ (972 : ℤ) ≤ m * 2 ^ e :=
    mul_le_mul hnormal hgreat (by positivity) (by positivity)
  have hover : largest < ((2 ^ 52 : ℕ) : ℚ) * 2 ^ (972 : ℤ) := by
    have hunit : (0 : ℚ) < 2 ^ (971 : ℤ) := by positivity
    rw [largest, show (972 : ℤ) = 971 + 1 by rfl, zpow_add_one₀ two_ne_zero]
    generalize (2 : ℚ) ^ (971 : ℤ) = unit at hunit ⊢
    push_cast
    linarith
  exact absurd (hlow.trans h) (not_le_of_gt hover)

/-- A number up to the largest finite double fits into one. -/
lemma Valued.isFinite_pack (h : Valued a v) (hle : v ≤ largest) :
    (Float.Model.pack a).unpack.isFinite = true := by
  cases h with
  | zero sign =>
      have hzero : (Float.Model.pack (.zero sign)).unpack = .zero sign := unpack_packedZero
      rw [hzero]
      rfl
  | finite hm hcanonical =>
      rw [unpack_pack_of_le hcanonical (exponent_le_of_le_largest hcanonical hle)]
      rfl

/-- A number that fits is kept. -/
lemma Valued.pack (h : Valued a v) (hfinite : (Float.Model.pack a).unpack.isFinite = true) :
    Valued (Float.Model.pack a).unpack v := by
  cases h with
  | zero sign =>
      have hzero : (Float.Model.pack (.zero sign)).unpack = .zero sign := unpack_packedZero
      rw [hzero]
      exact .zero sign
  | finite hm hcanonical =>
      rw [unpack_pack_finite hcanonical] at hfinite ⊢
      split_ifs at hfinite ⊢
      · cases hfinite
      · exact .finite hm hcanonical

/-- **Sums** are near the exact ones. -/
lemma Valued.exists_add (ha : Valued a v) (hb : Valued b w) :
    ∃ u, Valued (UnpackedFloat.add .binary64 a b) u ∧ Near 1 (v + w) u := by
  -- a sum with zero is exact
  have hexact : Near 1 (v + w) (v + w) :=
    (Near.refl _).mono (Left.add_nonneg ha.nonneg hb.nonneg) (Nat.zero_le 1)
  cases ha with
  | zero sign =>
      rw [zero_add] at hexact ⊢
      cases hb with
      | zero sign' =>
          refine ⟨0, ?_, hexact⟩
          rw [UnpackedFloat.add]
          split_ifs <;> exact .zero _
      | finite hm hcanonical => exact ⟨_, .finite hm hcanonical, hexact⟩
  | @finite m e hm hcanonical =>
      cases hb with
      | zero sign =>
          rw [add_zero] at hexact ⊢
          exact ⟨_, .finite hm hcanonical, hexact⟩
      | @finite m' e' hm' hcanonical' =>
          obtain ⟨m₀, e₀, hm₀, hround, hcanonical₀, hnear⟩ := exists_round_near
            (Nat.add_pos_left (Nat.mul_pos hm (Nat.two_pow_pos (e - min e e').toNat))
              (m' * 2 ^ (e' - min e e').toNat))
            (le_min hcanonical.le_exponent hcanonical'.le_exponent)
          rw [add_finite, hround]
          refine ⟨_, .finite hm₀ hcanonical₀, ?_⟩
          rwa [Nat.cast_add, add_mul, cast_shift_mul_zpow m (min_le_left _ _),
            cast_shift_mul_zpow m' (min_le_right _ _)] at hnear

/-- A mantissa has all its bits, if the number is at least one. -/
lemma full_of_one_le (hcanonical : Canonical m e) (h : (1 : ℚ) ≤ m * 2 ^ e) : 2 ^ 52 ≤ m := by
  refine hcanonical.normal.resolve_right fun hleast => ?_
  have hbits : (m : ℚ) < 2 ^ (53 : ℤ) := by exact_mod_cast hcanonical.mantissa_lt
  have hsmall : (m * 2 ^ e : ℚ) < 1 :=
    calc (m * 2 ^ e : ℚ) < 2 ^ (53 : ℤ) * 2 ^ e := mul_lt_mul_of_pos_right hbits (by positivity)
      _ = 2 ^ (53 + e) := (zpow_add₀ two_ne_zero _ _).symm
      _ ≤ 2 ^ (0 : ℤ) := zpow_le_zpow_right₀ one_le_two (by omega)
      _ = 1 := zpow_zero _
  exact absurd h (not_le_of_gt hsmall)

/-- **Products** with a whole number are near the exact ones. -/
lemma Valued.exists_mul (ha : Valued a n) (hb : Valued b w) :
    ∃ u, Valued (UnpackedFloat.mul .binary64 a b) u ∧ Near 1 (n * w) u := by
  obtain ⟨units, hunits⟩ := hb.exists_least
  generalize hv : (n : ℚ) = v at ha ⊢
  cases ha with
  | zero sign =>
      rw [zero_mul]
      refine ⟨0, ?_, (Near.refl 0).mono le_rfl (Nat.zero_le 1)⟩
      cases hb with
      | zero sign' => exact .zero _
      | finite => exact .zero _
  | @finite m e hm hcanonical =>
      cases hb with
      | zero sign =>
          rw [mul_zero]
          exact ⟨0, .zero _, (Near.refl 0).mono le_rfl (Nat.zero_le 1)⟩
      | @finite m' e' hm' hcanonical' =>
          have hone : (1 : ℚ) ≤ m * 2 ^ e := by
            have hpos : (0 : ℚ) < n := by
              rw [hv]
              positivity
            rw [← hv]
            exact_mod_cast hpos
          have hvalue : ((m * m' : ℕ) * 2 ^ (e + e') : ℚ) = m * 2 ^ e * (m' * 2 ^ e') := by
            rw [zpow_add₀ two_ne_zero]
            push_cast
            ring
          have hwhole : ((m * m' : ℕ) * 2 ^ (e + e') : ℚ) =
              (n * units : ℕ) * 2 ^ (-1074 : ℤ) := by
            rw [hvalue, hunits, ← hv, Nat.cast_mul, mul_assoc]
          have hfull : 2 ^ 52 ≤ m * m' :=
            (full_of_one_le hcanonical hone).trans (Nat.le_mul_of_pos_right m hm')
          have hlog : 52 ≤ (m * m').log2 := (Nat.le_log2 (Nat.mul_pos hm hm').ne').mpr hfull
          have htarget : e + e' ≤
              Format.binary64.targetExponent (totalExponent (m * m') (e + e')) := by
            rw [targetExponent_eq]
            omega
          obtain ⟨m₀, e₀, hm₀, hround, hcanonical₀, -, hnear⟩ :=
            exists_roundWithAccuracy_near (Nat.mul_pos hm hm') htarget hwhole
          have hmul : UnpackedFloat.mul .binary64 (.finite .positive m e hm)
              (.finite .positive m' e' hm') = .finite .positive m₀ e₀ hm₀ := hround
          rw [hmul]
          refine ⟨_, .finite hm₀ hcanonical₀, ?_⟩
          rwa [hvalue] at hnear

lemma valued_ofNat_zero : Valued (Float.ofNat 0).toModel.unpack (0 : ℕ) := by
  have hzero : (Float.ofNat 0).toModel.unpack = .zero .positive := unpack_zero
  rw [hzero, Nat.cast_zero]
  exact .zero .positive

/-- **Counts** stay whole, and near themselves. -/
lemma exists_valued_ofNat (h : n * growth ≤ largest) :
    ∃ count : ℕ, Valued (Float.ofNat n).toModel.unpack count ∧ Near 1 (n : ℚ) count := by
  have hexact : Near 1 (n : ℚ) n := (Near.refl _).mono n.cast_nonneg (Nat.zero_le 1)
  rcases n.eq_zero_or_pos with rfl | hpos
  · exact ⟨0, valued_ofNat_zero, hexact⟩
  · by_cases hsmall : n < 2 ^ 53
    · obtain ⟨m, e, hm, hparts, -, hvalue⟩ := exists_ofNat_parts hpos hsmall
      rw [hparts]
      exact ⟨n, hvalue ▸ .finite hm (canonical_of_unpack hparts), hexact⟩
    · have hlarge : 53 ≤ n.log2 := (Nat.le_log2 hpos.ne').mpr (not_lt.mp hsmall)
      have htarget := targetExponent_eq (n * 2 ^ 53) (-53)
      rw [log2_mul_two_pow hpos] at htarget
      have hunits : ∀ bits : ℕ, ((n * 2 ^ bits : ℕ) * 2 ^ (-bits : ℤ) : ℚ) = n := fun bits => by
        rw [Nat.cast_mul, Nat.cast_pow, Nat.cast_ofNat, zpow_neg, zpow_natCast,
          mul_inv_cancel_right₀ (by positivity)]
      have hvalue : ((n * 2 ^ 53 : ℕ) * 2 ^ (-53 : ℤ) : ℚ) = n := hunits 53
      have hwhole : ((n * 2 ^ 53 : ℕ) * 2 ^ (-53 : ℤ) : ℚ) =
          (n * 2 ^ 1074 : ℕ) * 2 ^ (-1074 : ℤ) := hvalue.trans (hunits 1074).symm
      obtain ⟨m, e, hm, hround, hcanonical, hexponent, hnear⟩ := exists_roundWithAccuracy_near
        (Nat.mul_pos hpos (Nat.two_pow_pos 53)) (by omega) hwhole
      rw [hvalue] at hnear
      have hparts : (Float.ofNat n).toModel.unpack =
          (Float.Model.pack (UnpackedFloat.ofScientific .binary64 n (Int.ofNat 0))).unpack := by
        have hscientific : Float.ofNat n = Float.ofScientific n false 0 := rfl
        rw [hscientific, Float.ofScientific, dif_neg fun h => hsmall h.1]
        rfl
      obtain ⟨twos, rfl⟩ := Int.eq_ofNat_of_zero_le (show 0 ≤ e by omega)
      have hcount : ((m * 2 ^ twos : ℕ) : ℚ) = m * 2 ^ (twos : ℤ) := by
        rw [Nat.cast_mul, Nat.cast_pow, Nat.cast_ofNat, zpow_natCast]
      rw [← hcount] at hnear
      have hle : ((m * 2 ^ twos : ℕ) : ℚ) ≤ largest := hnear.le.trans (by rwa [pow_one])
      have hvalued : Valued (.finite .positive m twos hm) ((m * 2 ^ twos : ℕ) : ℚ) :=
        hcount ▸ .finite hm hcanonical
      rw [hparts, ofScientific_nat hpos, hround]
      exact ⟨m * 2 ^ twos, hvalued.pack (hvalued.isFinite_pack hle), hnear⟩

end Valued

/-! ### Exact values -/

/-- The value of a double; zero, if it has none. -/
def valueOf (x : Float) : ℚ :=
  match Exact.ofFloat x with
  | .finite negative m e => (if negative then -1 else 1) * (m * 2 ^ e)
  | _ => 0

section Values

variable {x y : Float} {a b : UnpackedFloat} {v q r : ℚ} {n k l : ℕ}

/-- The value of a double is told by its parts. -/
lemma Valued.valueOf_eq (h : Valued x.toModel.unpack v) : valueOf x = v := by
  have hexact := isExact_ofFloat x
  rw [valueOf]
  generalize Exact.ofFloat x = exact at hexact ⊢
  generalize x.toModel.unpack = parts at h hexact
  cases h with
  | zero sign =>
      cases hexact
      dsimp only
      rw [Nat.cast_zero, zero_mul, mul_zero]
  | finite hm hcanonical =>
      generalize hsign : Sign.positive = sign at hexact
      cases hexact with
      | finite negative =>
          cases negative with
          | true => cases hsign
          | false =>
              dsimp only
              rw [if_neg Bool.false_ne_true, one_mul]

/-- A usable number has its value. -/
lemma valued_of_usable (hfinite : x.isFinite = true) (hnonneg : 0 ≤ x) :
    Valued x.toModel.unpack (valueOf x) := by
  have hvalued : ∃ v, Valued x.toModel.unpack v := by
    have hfinite' : x.toModel.unpack.isFinite = true := hfinite
    have hsign := nonneg_iff.mp hnonneg
    have hcanonical : ∀ {sign m e hm}, x.toModel.unpack = .finite sign m e hm → Canonical m e :=
      canonical_of_unpack
    generalize x.toModel.unpack = parts at hfinite' hsign hcanonical
    cases hsign with
    | zero sign => exact ⟨0, .zero sign⟩
    | infinity => cases hfinite'
    | finite hm => exact ⟨_, .finite hm (hcanonical rfl)⟩
  obtain ⟨v, hv⟩ := hvalued
  rwa [hv.valueOf_eq]

/-- The greatest double that can be written. -/
example : valueOf 1.7976931348623157e308 = largest := by
  decide +kernel

/-- No double is above the largest finite one. -/
lemma Valued.le_largest (h : Valued x.toModel.unpack v) : v ≤ largest := by
  have hexact := isExact_ofFloat x
  generalize Exact.ofFloat x = exact at hexact
  generalize x.toModel.unpack = parts at h hexact
  cases h with
  | zero sign =>
      rw [largest]
      positivity
  | @finite m e hm hcanonical =>
      have hbits : (m : ℚ) + 1 ≤ 2 ^ 53 := by exact_mod_cast hcanonical.mantissa_lt
      generalize hsign : Sign.positive = sign at hexact
      cases hexact with
      | finite negative _ _ hmax =>
          exact mul_le_mul (by linarith) (zpow_le_zpow_right₀ one_le_two hmax) (by positivity)
            (by norm_num)

/-! ### Overflow -/

/-- What is packed into a finite double was finite. -/
lemma isFinite_of_pack (h : (Float.Model.pack a).unpack.isFinite = true) : a.isFinite = true := by
  have hnan : (Float.Model.pack .notANumber).unpack.isFinite = false := by decide +kernel
  cases a with
  | zero sign => rfl
  | finite sign m e hm => rfl
  | notANumber =>
      rw [hnan] at h
      cases h
  | infinity sign =>
      rw [unpack_pack_infinity] at h
      cases h

/-- The parts of a finite sum are finite. -/
lemma isFinite_of_add_parts (h : (UnpackedFloat.add .binary64 a b).isFinite = true) :
    a.isFinite = true ∧ b.isFinite = true := by
  cases a with
  | notANumber => cases b <;> cases h
  | infinity sign =>
      cases b with
      | infinity sign' =>
          -- two of opposite signs are no number
          rw [UnpackedFloat.add] at h
          split_ifs at h <;> cases h
      | notANumber => cases h
      | zero => cases h
      | finite => cases h
  | zero sign =>
      cases b with
      | notANumber => cases h
      | infinity => cases h
      | zero => exact ⟨rfl, rfl⟩
      | finite => exact ⟨rfl, rfl⟩
  | finite sign m e hm =>
      cases b with
      | notANumber => cases h
      | infinity => cases h
      | zero => exact ⟨rfl, rfl⟩
      | finite => exact ⟨rfl, rfl⟩

/-- **Overflow** is never undone: a sum is finite only if both parts are. -/
lemma isFinite_of_add (h : (x + y).isFinite = true) : x.isFinite = true ∧ y.isFinite = true :=
  isFinite_of_add_parts (isFinite_of_pack h)

/-! ### Several roundings -/

/-- The double comes from a number that is not negative by so many roundings: it is finite if the
number leaves room for them, and whenever it is finite it is near the number. -/
structure Rounded (k : ℕ) (x : Float) (q : ℚ) : Prop where
  nonneg : 0 ≤ q
  isFinite : q * growth ^ k ≤ largest → x.isFinite = true
  near : x.isFinite = true → ∃ v, Valued x.toModel.unpack v ∧ Near k q v

lemma Valued.rounded (h : Valued x.toModel.unpack q) : Rounded 0 x q where
  nonneg := h.nonneg
  isFinite _ := h.isFinite
  near _ := ⟨q, h, .refl q⟩

lemma Rounded.mono (h : Rounded k x q) (hle : k ≤ l) : Rounded l x q where
  nonneg := h.nonneg
  isFinite hl := h.isFinite ((mul_le_mul_of_nonneg_left (pow_le_pow_right₀ one_le_growth hle)
    h.nonneg).trans hl)
  near hfinite := by
    obtain ⟨v, hv, hnear⟩ := h.near hfinite
    exact ⟨v, hv, hnear.mono h.nonneg hle⟩

/-- A sum is rounded once more. -/
theorem Rounded.add (hx : Rounded k x q) (hy : Rounded k y r) :
    Rounded (k + 1) (x + y) (q + r) := by
  have hsum : x.isFinite = true → y.isFinite = true →
      ∃ u, Valued (UnpackedFloat.add .binary64 x.toModel.unpack y.toModel.unpack) u ∧
        Near (k + 1) (q + r) u := fun hxfinite hyfinite => by
    obtain ⟨v, hv, hvnear⟩ := hx.near hxfinite
    obtain ⟨w, hw, hwnear⟩ := hy.near hyfinite
    obtain ⟨u, hu, hunear⟩ := hv.exists_add hw
    exact ⟨u, hu, (hvnear.add hwnear).trans hunear⟩
  -- room for the sum is room for each part
  have hroom : ∀ {p : ℚ}, 0 ≤ p → p ≤ q + r → p * growth ^ k ≤ (q + r) * growth ^ (k + 1) :=
    fun hp hle => mul_le_mul hle (pow_le_pow_right₀ one_le_growth k.le_succ)
      (pow_nonneg growth_nonneg k) (hp.trans hle)
  exact {
    nonneg := Left.add_nonneg hx.nonneg hy.nonneg
    isFinite := fun h => by
      obtain ⟨u, hu, hnear⟩ := hsum
        (hx.isFinite ((hroom hx.nonneg (le_add_of_nonneg_right hy.nonneg)).trans h))
        (hy.isFinite ((hroom hy.nonneg (le_add_of_nonneg_left hx.nonneg)).trans h))
      exact hu.isFinite_pack (hnear.le.trans h)
    near := fun hfinite => by
      obtain ⟨hxfinite, hyfinite⟩ := isFinite_of_add hfinite
      obtain ⟨u, hu, hnear⟩ := hsum hxfinite hyfinite
      exact ⟨u, hu.pack hfinite, hnear⟩ }

/-- A multiple is rounded twice, once for the count. -/
theorem Valued.rounded_mul (hx : Valued x.toModel.unpack q) (hn : n * growth ≤ largest) :
    Rounded 2 (Float.ofNat n * x) (n * q) := by
  obtain ⟨count, hcount, hcountNear⟩ := exists_valued_ofNat hn
  obtain ⟨u, hu, hproduct⟩ := hcount.exists_mul hx
  have hnear : Near 2 (n * q) u := (hcountNear.mul_right hx.nonneg).trans hproduct
  exact {
    nonneg := Left.mul_nonneg n.cast_nonneg hx.nonneg
    isFinite := fun h => hu.isFinite_pack (hnear.le.trans h)
    near := fun hfinite => ⟨u, hu.pack hfinite, hnear⟩ }

/-- No finite double comes from a number that so many roundings cannot reduce to the largest one. -/
lemma Rounded.le_largest (h : Rounded k x q) (hfinite : x.isFinite = true) :
    q * decay ^ k ≤ largest := by
  obtain ⟨v, hv, hnear⟩ := h.near hfinite
  exact hnear.ge.trans hv.le_largest

/-- A number that leaves room for so many roundings is finite as a double, and a finite double is
near the number. -/
structure HeldWithin (k : ℕ) (x : Float) (q : ℚ) : Prop where
  isFinite : q * growth ^ k ≤ largest → x.isFinite = true
  near : x.isFinite = true → Near k q (valueOf x)

lemma Rounded.heldWithin (h : Rounded k x q) : HeldWithin k x q where
  isFinite := h.isFinite
  near hfinite := by
    obtain ⟨v, hv, hnear⟩ := h.near hfinite
    rwa [hv.valueOf_eq]

end Values

end ScriptLint.Doubles
