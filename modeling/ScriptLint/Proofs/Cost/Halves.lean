import Mathlib
import ScriptLint.Proofs.Decimal.Scientific

/-!
Numbers of halves as doubles.

* `half`: a number of halves, as a double.
* `exists_half_parts`, `unpack_half`: the mantissa and the exponent of such a double.
* `half_add`, `ofNat_mul_half`: below 2 to the power of 53 halves, sums and multiples are exact.
* `InHalves`: a double that is this number of halves, as long as they are fewer than that; sums
  and multiples of such doubles are again.
-/

namespace ScriptLint.Doubles

open Float.Model Float.Model.UnpackedFloat Decimal

/-! ### Halves and their parts -/

/-- A number of halves as a double. -/
def half (n : ℕ) : Float :=
  Float.ofNat n / 2

variable {n k m : ℕ} {e : ℤ} {x y : Float}

/-- A positive number of halves has a canonical mantissa and exponent. -/
lemma exists_half_parts (hpos : 0 < n) (hlt : n < 2 ^ 53) :
    ∃ m e, 0 < m ∧ Canonical m e ∧ 2 ^ 52 ≤ m ∧ e ≤ 971 ∧ (m * 2 ^ e : ℚ) = n / 2 := by
  obtain ⟨m, e, hcanonical, hfull, hmax, hvalue⟩ := exists_canonical hpos hlt 0
  rw [pow_zero, mul_one] at hvalue
  -- the number is at least one, so its exponent is far above the least one
  have hlow : -53 < e := by
    have hone : (1 : ℚ) ≤ m * 2 ^ e := by
      rw [hvalue]
      exact_mod_cast hpos
    have hbits : (m : ℚ) < 2 ^ (53 : ℤ) := by exact_mod_cast hcanonical.mantissa_lt
    have hunit : (0 : ℚ) < 2 ^ e := by positivity
    have hprod : (2 : ℚ) ^ (0 : ℤ) < 2 ^ (53 + e) := by
      rw [zpow_zero, zpow_add₀ two_ne_zero]
      exact hone.trans_lt (mul_lt_mul_of_pos_right hbits hunit)
    have hexponent := (zpow_lt_zpow_iff_right₀ (one_lt_two (α := ℚ))).mp hprod
    omega
  refine ⟨m, e - 1, (Nat.two_pow_pos 52).trans_le hfull,
    ⟨hcanonical.mantissa_lt, by omega, .inl hfull⟩, hfull, by omega, ?_⟩
  rw [zpow_sub_one₀ two_ne_zero, ← mul_assoc, hvalue, div_eq_mul_inv]

/-- A count as a double has the parts of its value. -/
lemma exists_ofNat_parts (hpos : 0 < n) (hlt : n < 2 ^ 53) :
    ∃ m e hm, (Float.ofNat n).toModel.unpack = .finite .positive m e hm ∧ 2 ^ 52 ≤ m ∧
      (m * 2 ^ e : ℚ) = n := by
  obtain ⟨m, e, hcanonical, hfull, hmax, hvalue⟩ := exists_canonical hpos hlt 0
  rw [pow_zero, mul_one] at hvalue
  refine ⟨m, e, (Nat.two_pow_pos 52).trans_le hfull, ?_, hfull, hvalue⟩
  have hplain : scientific n false 0 = m * 2 ^ e := by
    rw [scientific, hvalue]
    simp
  exact unpack_ofScientific_of_small hpos ⟨hlt, by decide⟩ hcanonical (by omega)
    (hplain ▸ roundsTo_self m e)

/-- The parts of a number of halves are those of its value. -/
lemma unpack_half (hpos : 0 < n) (hlt : n < 2 ^ 53) (hm : 0 < m) (hcanonical : Canonical m e)
    (hmax : e ≤ 971) (hvalue : (m * 2 ^ e : ℚ) = n / 2) :
    (half n).toModel.unpack = .finite .positive m e hm := by
  obtain ⟨m₁, e₁, hm₁, hcount, -, hvalue₁⟩ := exists_ofNat_parts hpos hlt
  obtain ⟨m₂, e₂, hm₂, htwo, -, hvalue₂⟩ := exists_ofNat_parts (n := 2) (by decide) (by decide)
  have hquotient : (m * 2 ^ e : ℚ) = m₁ * 2 ^ e₁ / (m₂ * 2 ^ e₂) := by
    rw [hvalue, hvalue₁, hvalue₂, Nat.cast_ofNat]
  exact (congrArg (fun parts => (Float.Model.pack parts).unpack)
    ((congrArg₂ _ hcount htwo).trans
      (div_eq_of_roundsTo hcanonical (hquotient ▸ roundsTo_self m e)))).trans
        (unpack_pack_of_le hcanonical hmax _)

lemma unpack_half_zero : (half 0).toModel.unpack = .zero .positive := by
  have hbits : (half 0).toModel.toBits = 0 := by decide +kernel
  rw [Float.Model.unpack, hbits]
  rfl

/-! ### Exact arithmetic -/

/-- A mantissa at a smaller exponent. -/
lemma cast_shift_mul_zpow (m : ℕ) {least : ℤ} (hle : least ≤ e) :
    ((m * 2 ^ (e - least).toNat : ℕ) : ℚ) * 2 ^ least = m * 2 ^ e := by
  rw [Nat.cast_mul, Nat.cast_pow, Nat.cast_ofNat, mul_assoc, ← zpow_natCast,
    ← zpow_add₀ two_ne_zero, Int.toNat_of_nonneg (by omega), sub_add_cancel]

/-- A sum that is a double is exact. -/
lemma add_eq_of_value {m' m₀ : ℕ} {e' e₀ : ℤ} (hm : 0 < m) (hm' : 0 < m') (hm₀ : 0 < m₀)
    (hcanonical : Canonical m₀ e₀) (hvalue : (m * 2 ^ e + m' * 2 ^ e' : ℚ) = m₀ * 2 ^ e₀) :
    UnpackedFloat.add .binary64 (.finite .positive m e hm) (.finite .positive m' e' hm') =
      .finite .positive m₀ e₀ hm₀ := by
  -- at the smaller exponent both mantissas are whole numbers
  have hexact : (((m * 2 ^ (e - min e e').toNat + m' * 2 ^ (e' - min e e').toNat : ℕ) : ℚ)) *
      2 ^ min e e' = m₀ * 2 ^ e₀ := by
    rw [Nat.cast_add, add_mul, cast_shift_mul_zpow m (min_le_left _ _),
      cast_shift_mul_zpow m' (min_le_right _ _), hvalue]
  have hpos : 0 < m * 2 ^ (e - min e e').toNat + m' * 2 ^ (e' - min e e').toNat :=
    Nat.add_pos_left (Nat.mul_pos hm (Nat.two_pow_pos _)) _
  rw [add_finite]
  exact round_eq_of_roundsTo hpos hcanonical (hexact ▸ roundsTo_self m₀ e₀)

/-- Sums of halves are exact. -/
theorem half_add (h : n + k < 2 ^ 53) : half n + half k = half (n + k) := by
  apply Digits.eq_of_unpack
  have hsum : (half n + half k).toModel.unpack = (Float.Model.pack (UnpackedFloat.add .binary64
      (half n).toModel.unpack (half k).toModel.unpack)).unpack := rfl
  rw [hsum]
  rcases n.eq_zero_or_pos with rfl | hn
  · rcases k.eq_zero_or_pos with rfl | hk
    · rw [unpack_half_zero]
      exact unpack_packedZero
    · obtain ⟨m, e, hm, hcanonical, -, hmax, hvalue⟩ := exists_half_parts hk (by omega)
      rw [Nat.zero_add, unpack_half_zero, unpack_half hk (by omega) hm hcanonical hmax hvalue]
      exact unpack_pack_of_le hcanonical hmax _
  · obtain ⟨m, e, hm, hcanonical, -, hmax, hvalue⟩ := exists_half_parts hn (by omega)
    rw [unpack_half hn (by omega) hm hcanonical hmax hvalue]
    rcases k.eq_zero_or_pos with rfl | hk
    · rw [Nat.add_zero, unpack_half_zero,
        unpack_half hn (by omega) hm hcanonical hmax hvalue]
      exact unpack_pack_of_le hcanonical hmax _
    · obtain ⟨m', e', hm', hcanonical', -, hmax', hvalue'⟩ := exists_half_parts hk (by omega)
      obtain ⟨m₀, e₀, hm₀, hcanonical₀, -, hmax₀, hvalue₀⟩ :=
        exists_half_parts (Nat.add_pos_left hn k) h
      have hexact : (m * 2 ^ e + m' * 2 ^ e' : ℚ) = m₀ * 2 ^ e₀ := by
        rw [hvalue, hvalue', hvalue₀, Nat.cast_add, add_div]
      rw [unpack_half hk (by omega) hm' hcanonical' hmax' hvalue',
        add_eq_of_value hm hm' hm₀ hcanonical₀ hexact,
        unpack_half (Nat.add_pos_left hn k) h hm₀ hcanonical₀ hmax₀ hvalue₀]
      exact unpack_pack_of_le hcanonical₀ hmax₀ _

/-- Multiples of halves are exact. -/
theorem ofNat_mul_half (hk : 0 < k) (hklt : k < 2 ^ 53) (h : n * k < 2 ^ 53) :
    Float.ofNat n * half k = half (n * k) := by
  apply Digits.eq_of_unpack
  have hproduct : (Float.ofNat n * half k).toModel.unpack =
      (Float.Model.pack (UnpackedFloat.mul .binary64 (Float.ofNat n).toModel.unpack
        (half k).toModel.unpack)).unpack := rfl
  obtain ⟨m₂, e₂, hm₂, hcanonical₂, -, hmax₂, hvalue₂⟩ := exists_half_parts hk hklt
  rw [hproduct, unpack_half hk hklt hm₂ hcanonical₂ hmax₂ hvalue₂]
  rcases n.eq_zero_or_pos with rfl | hn
  · have hzero : (Float.ofNat 0).toModel.unpack = .zero .positive := unpack_zero
    rw [hzero, Nat.zero_mul, unpack_half_zero]
    exact unpack_packedZero
  · have hnlt : n < 2 ^ 53 := (Nat.le_mul_of_pos_right n hk).trans_lt h
    obtain ⟨m₁, e₁, hm₁, hcount, hfull₁, hvalue₁⟩ := exists_ofNat_parts hn hnlt
    obtain ⟨m, e, hm, hcanonical, -, hmax, hvalue⟩ := exists_half_parts (Nat.mul_pos hn hk) h
    have hexact : (m₁ * 2 ^ e₁ * (m₂ * 2 ^ e₂) : ℚ) = m * 2 ^ e := by
      rw [hvalue₁, hvalue₂, hvalue, Nat.cast_mul, mul_div_assoc]
    have hmul : UnpackedFloat.mul .binary64 (.finite .positive m₁ e₁ hm₁)
        (.finite .positive m₂ e₂ hm₂) = .finite .positive m e hm :=
      mul_eq_of_roundsTo hcanonical (hfull₁.trans (Nat.le_mul_of_pos_right _ hm₂))
        (hexact ▸ roundsTo_self m e)
    rw [hcount, hmul, unpack_half (Nat.mul_pos hn hk) h hm hcanonical hmax hvalue]
    exact unpack_pack_of_le hcanonical hmax _

/-! ### Doubles that are halves -/

/-- The double is this number of halves, as long as they are fewer than 2 to the power of 53. -/
def InHalves (x : Float) (n : ℕ) : Prop :=
  n < 2 ^ 53 → x = half n

lemma inHalves_half (n : ℕ) : InHalves (half n) n :=
  fun _ => rfl

lemma inHalves_zero : InHalves (Float.ofNat 0) 0 := by
  intro _
  apply Digits.eq_of_unpack
  rw [unpack_half_zero]
  exact unpack_zero

lemma InHalves.add (hx : InHalves x n) (hy : InHalves y k) : InHalves (x + y) (n + k) := by
  intro h
  rw [hx (by omega), hy (by omega), half_add h]

end ScriptLint.Doubles
