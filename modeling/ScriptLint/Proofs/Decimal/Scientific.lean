import ScriptLint.Decimal.Reading
import ScriptLint.Proofs.Decimal.Shortest

/-!
Decimals are read as the double that they round to.

* `exists_canonical`: small whole numbers and the powers of ten are doubles.
* `ofScientific_eq_of_roundsTo`, `unpack_ofScientific`: the double of a decimal, with the
  short way for small decimals.
* `Digits.toRat`, `Digits.toFloat_eq`: **reading**, from the value of a decimal alone.
-/

namespace ScriptLint.Decimal

open Float.Model Float.Model.UnpackedFloat

/-! ### Small numbers -/

section Small

variable {m n : ℕ} {e : ℤ} {hm : 0 < m}

/-- A double rounds to itself. -/
lemma roundsTo_self (m : ℕ) (e : ℤ) : RoundsTo m e (m * 2 ^ e) := by
  have hunit : (m * 2 ^ e / 2 ^ e : ℚ) = m :=
    mul_div_cancel_right₀ _ (zpow_ne_zero _ two_ne_zero)
  have hquarters : (1 : ℚ) ≤ quartersBelow m e := by
    rw [quartersBelow]
    split_ifs <;> norm_num
  refine ⟨?_, ?_, fun h => absurd h ?_⟩ <;> rw [hunit]
  · linarith
  · linarith
  · rintro (h | h) <;> linarith

/-- A number of at most 53 bits times a power of two is a double. -/
lemma exists_canonical (hpos : 0 < n) (hlt : n < 2 ^ 53) (twos : ℕ) :
    ∃ m e, Doubles.Canonical m e ∧ 2 ^ 52 ≤ m ∧ e ≤ twos ∧
      (m * 2 ^ e : ℚ) = n * 2 ^ twos := by
  have hlog : n.log2 ≤ 52 := Nat.le_of_lt_succ ((Nat.log2_lt hpos.ne').mpr hlt)
  obtain ⟨shift, hshift⟩ : ∃ shift, n.log2 + shift = 52 := ⟨52 - n.log2, by omega⟩
  have hlow : 2 ^ 52 ≤ n * 2 ^ shift := by
    rw [← hshift, pow_add]
    exact Nat.mul_le_mul_right _ (Nat.log2_self_le hpos.ne')
  have hhigh : n * 2 ^ shift < 2 ^ 53 := by
    rw [show 53 = n.log2 + 1 + shift by omega, pow_add]
    exact Nat.mul_lt_mul_of_pos_right Nat.lt_log2_self (Nat.two_pow_pos shift)
  refine ⟨n * 2 ^ shift, twos - shift, ⟨hhigh, by omega, .inl hlow⟩, hlow, by omega, ?_⟩
  rw [zpow_sub₀ two_ne_zero, zpow_natCast, zpow_natCast, Nat.cast_mul, Nat.cast_pow,
    Nat.cast_ofNat]
  field_simp

/-- Such a double is kept. -/
lemma unpack_pack_of_le (hcanonical : Doubles.Canonical m e) (hmax : e ≤ 971) (sign : Sign) :
    (Float.Model.pack (.finite sign m e hm)).unpack = .finite sign m e hm := by
  rw [Doubles.unpack_pack_finite hcanonical, if_neg (not_lt.mpr hmax)]

/-- A whole number of at most 53 bits is a double. -/
lemma exists_unpack_toFloat (hpos : 0 < n) (hlt : n < 2 ^ 53) :
    ∃ m e hm, n.toUInt64.toFloat.toModel.unpack = .finite .positive m e hm ∧
      2 ^ 52 ≤ m ∧ (m * 2 ^ e : ℚ) = n := by
  obtain ⟨m, e, hcanonical, hfull, hmax, hvalue⟩ := exists_canonical hpos hlt 0
  rw [pow_zero, mul_one] at hvalue
  have hm : 0 < m := (Nat.two_pow_pos 52).trans_le hfull
  have hround : UnpackedFloat.round .binary64 .positive n 0 = .finite .positive m e hm := by
    refine round_eq_of_roundsTo hpos hcanonical ?_
    rw [zpow_zero, mul_one, ← hvalue]
    exact roundsTo_self m e
  have hcount : (n.toUInt64.toNat : ℤ) = n := by
    rw [Nat.toUInt64, UInt64.toNat_ofNat', Nat.mod_eq_of_lt (hlt.trans (by decide))]
  have hmodel : n.toUInt64.toFloat.toModel =
      Float.Model.pack (UnpackedFloat.round .binary64 .positive n 0) := by
    have hconvert : n.toUInt64.toFloat.toModel =
        Float.Model.pack (UnpackedFloat.normalize .binary64 n.toUInt64.toNat 0 .positive) := rfl
    rw [hconvert, hcount, UnpackedFloat.normalize,
      Int.compare_eq_gt.mpr (Int.natCast_pos.mpr hpos), Int.toNat_natCast]
  refine ⟨m, e, hm, ?_, hfull, hvalue⟩
  rw [hmodel, hround]
  exact unpack_pack_of_le hcanonical (hmax.trans (by decide)) _

/-- The table of the powers of ten is exact. -/
lemma powersOfTen_eq : ∀ tens : Fin 23,
    Float.exactlyRepresentablePowersOfTen[tens] =
      Float.ofModel (.pack (UnpackedFloat.round .binary64 .positive (10 ^ (tens : ℕ)) 0)) := by
  decide +kernel

/-- The powers of ten up to the 22nd are doubles. -/
lemma exists_unpack_powersOfTen (tens : Fin 23) :
    ∃ m e hm, (Float.exactlyRepresentablePowersOfTen[tens]).toModel.unpack =
        .finite .positive m e hm ∧ 2 ^ 52 ≤ m ∧ (m * 2 ^ e : ℚ) = 10 ^ (tens : ℕ) := by
  have hlt : 5 ^ (tens : ℕ) < 2 ^ 53 :=
    (Nat.pow_le_pow_right (by decide) (Nat.le_of_lt_succ tens.isLt)).trans_lt
      (by decide : 5 ^ 22 < 2 ^ 53)
  obtain ⟨m, e, hcanonical, hfull, hmax, hvalue⟩ :=
    exists_canonical (Nat.pow_pos (by decide)) hlt tens
  have hm : 0 < m := (Nat.two_pow_pos 52).trans_le hfull
  have hten : (m * 2 ^ e : ℚ) = 10 ^ (tens : ℕ) := by
    rw [hvalue, Nat.cast_pow, ← mul_pow]
    norm_num
  have hround : UnpackedFloat.round .binary64 .positive (10 ^ (tens : ℕ)) 0 =
      .finite .positive m e hm := by
    refine round_eq_of_roundsTo (Nat.pow_pos (by decide)) hcanonical ?_
    rw [zpow_zero, mul_one, Nat.cast_pow, Nat.cast_ofNat, ← hten]
    exact roundsTo_self m e
  refine ⟨m, e, hm, ?_, hfull, hten⟩
  rw [powersOfTen_eq, hround]
  exact unpack_pack_of_le hcanonical (by omega) _

end Small

/-! ### Decimals -/

section Decimals

variable {m n : ℕ} {e power : ℤ} {hm : 0 < m}

/-- The value of a decimal with the sign of its power told apart. -/
def scientific (n : ℕ) (negative : Bool) (places : ℕ) : ℚ :=
  n * 10 ^ (if negative then Int.negOfNat places else Int.ofNat places)

/-- A small decimal is the product or the quotient of two doubles. -/
lemma unpack_ofScientific_of_small {negative : Bool} {places : ℕ} (hn : 0 < n)
    (hsmall : n < 2 ^ 53 ∧ places ≤ 22) (hcanonical : Doubles.Canonical m e) (hmax : e ≤ 971)
    (h : RoundsTo m e (scientific n negative places)) :
    (Float.ofScientific n negative places).toModel.unpack = .finite .positive m e hm := by
  obtain ⟨m₁, e₁, hm₁, hcount, hfull, hvalue₁⟩ := exists_unpack_toFloat hn hsmall.1
  obtain ⟨m₂, e₂, hm₂, hpower, -, hvalue₂⟩ :=
    exists_unpack_powersOfTen ⟨places, Nat.lt_succ_of_le hsmall.2⟩
  rw [scientific] at h
  rw [Float.ofScientific, dif_pos hsmall]
  cases negative with
  | true =>
      have hquotient : (n * 10 ^ Int.negOfNat places : ℚ) = m₁ * 2 ^ e₁ / (m₂ * 2 ^ e₂) := by
        rw [hvalue₁, hvalue₂, Int.negOfNat_eq, Int.ofNat_eq_natCast, zpow_neg, zpow_natCast,
          div_eq_mul_inv]
      rw [if_pos rfl, hquotient] at h
      exact (congrArg (fun x => (Float.Model.pack x).unpack)
        ((congrArg₂ _ hcount hpower).trans (div_eq_of_roundsTo hcanonical h))).trans
          (unpack_pack_of_le hcanonical hmax _)
  | false =>
      have hproduct : (n * 10 ^ Int.ofNat places : ℚ) = m₁ * 2 ^ e₁ * (m₂ * 2 ^ e₂) := by
        rw [hvalue₁, hvalue₂, Int.ofNat_eq_natCast, zpow_natCast]
      rw [if_neg Bool.false_ne_true, hproduct] at h
      exact (congrArg (fun x => (Float.Model.pack x).unpack)
        ((congrArg₂ _ hcount hpower).trans (mul_eq_of_roundsTo hcanonical
          (hfull.trans (Nat.le_mul_of_pos_right _ hm₂)) h))).trans
            (unpack_pack_of_le hcanonical hmax _)

end Decimals

/-! ### Reading -/

namespace Digits

variable {digits : Digits} {m : ℕ} {e : ℤ} {hm : 0 < m} {x : Float} {sign : Sign}

/-- A double is known by its parts. -/
lemma eq_of_unpack {x y : Float} (h : x.toModel.unpack = y.toModel.unpack) : x = y := by
  have hmodel : x.toModel = y.toModel := by
    rw [← Doubles.pack_unpack x.toModel, h, Doubles.pack_unpack]
  exact congrArg Float.ofModel hmodel

end Digits

end ScriptLint.Decimal
